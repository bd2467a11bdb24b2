import SceneScript.Proofs.Json.RoundTrip
import SceneScript.Scene.Written

namespace SceneScript

open Json

namespace Json

theorem nestingItems_map_le {α : Type} {f : α → Json} {n : Nat} (h : ∀ x, nesting (f x) ≤ n)
    (xs : List α) : nestingItems (xs.map f) ≤ n := by
  induction xs with
  | nil => simp [nestingItems]
  | cons x xs ih =>
    have hx := h x
    simp only [List.map_cons, nestingItems]
    omega

theorem eachItem_map {α : Type} {p : Json → Prop} {f : α → Json} {xs : List α}
    (h : ∀ x ∈ xs, Each p (f x)) : EachItem p (xs.map f) := by
  rw [eachItem_iff]
  intro item hi
  obtain ⟨x, hx, rfl⟩ := List.mem_map.mp hi
  exact h x hx

end Json

section Depth

theorem ArgValue.nesting_toJson (v : ArgValue) : nesting v.toJson = 0 := by
  cases v <;> rfl

theorem Arg.nesting_toJson (a : Arg) : nesting a.toJson ≤ 1 := by
  have hv := a.value.nesting_toJson
  simp [Arg.toJson, nesting, nestingMembers, hv]

theorem Asset.nesting_toJson (a : Asset) : nesting a.toJson ≤ 1 := by
  simp [Asset.toJson, nesting, nestingMembers, Json.nat]

theorem Sentence.nesting_toJson (s : Sentence) : nesting s.toJson ≤ 3 := by
  have hargs := nestingItems_map_le Arg.nesting_toJson s.args
  have hassets := nestingItems_map_le Asset.nesting_toJson s.assets
  have hscenes := nestingItems_map_le (f := Json.string) (n := 0) (fun _ => Nat.le_refl _)
    s.subScenes
  simp only [Sentence.toJson, nesting, nestingMembers, Json.nat]
  omega

theorem Scene.nesting_toJson (s : Scene) : nesting s.toJson ≤ 5 := by
  have hsentences := nestingItems_map_le Sentence.nesting_toJson s.sentences
  have hassets := nestingItems_map_le Asset.nesting_toJson s.assets
  have hscenes := nestingItems_map_le (f := Json.string) (n := 0) (fun _ => Nat.le_refl _)
    s.subScenes
  simp only [Scene.toJson, nesting, nestingMembers]
  omega

end Depth

section Numbers

variable {p : JsonNumber → Prop}

def Arg.Counts (p : JsonNumber → Prop) (a : Arg) : Prop :=
  ∀ n, a.value = .number n → p n

structure Sentence.Counts (p : JsonNumber → Prop) (s : Sentence) : Prop where
  args : ∀ a ∈ s.args, a.Counts p
  assets : ∀ a ∈ s.assets, p (.whole a.lineNumber)

theorem eachItem_strings (xs : List String) : EachItem (Regular p) (xs.map .string) :=
  eachItem_map fun _ _ => trivial

theorem Arg.regular_toJson {a : Arg} (h : a.Counts p) : Each (Regular p) a.toJson := by
  have hv : Each (Regular p) a.value.toJson := by
    cases hv : a.value with
    | number n => exact h n hv
    | _ => exact trivial
  have hkeys : ["key", "value"].Nodup := by decide
  exact ⟨hkeys, trivial, hv, trivial⟩

variable (hp : ∀ n < 64, p (.whole (n : Nat)))

include hp

theorem Asset.regular_toJson {a : Asset} (h : p (.whole a.lineNumber)) :
    Each (Regular p) a.toJson := by
  have hc : a.kind.code < 64 := by cases a.kind <;> decide
  have hkeys : ["name", "type", "url", "lineNumber"].Nodup := by decide
  exact ⟨hkeys, trivial, hp _ hc, trivial, h, trivial⟩

theorem Sentence.regular_toJson {s : Sentence} (h : s.Counts p) :
    Each (Regular p) s.toJson := by
  have hc : s.command.code < 64 := by cases s.command <;> decide
  have hargs := eachItem_map (f := Arg.toJson) fun a ha => Arg.regular_toJson (h.args a ha)
  have hassets := eachItem_map (f := Asset.toJson) fun a ha =>
    Asset.regular_toJson hp (h.assets a ha)
  have hscenes := eachItem_strings (p := p) s.subScenes
  have hkeys : ["command", "commandRaw", "content", "args", "sentenceAssets",
    "subScene"].Nodup := by decide
  exact ⟨hkeys, hp _ hc, trivial, trivial, ⟨trivial, hargs⟩, ⟨trivial, hassets⟩,
    ⟨trivial, hscenes⟩, trivial⟩

theorem Scene.regular_toJson {s : Scene} (hs : ∀ x ∈ s.sentences, x.Counts p)
    (ha : ∀ a ∈ s.assets, p (.whole a.lineNumber)) : Each (Regular p) s.toJson := by
  have hsentences := eachItem_map (f := Sentence.toJson) fun x hx =>
    Sentence.regular_toJson hp (hs x hx)
  have hassets := eachItem_map (f := Asset.toJson) fun a h => Asset.regular_toJson hp (ha a h)
  have hscenes := eachItem_strings (p := p) s.subScenes
  have hkeys : ["sceneName", "sceneUrl", "sentenceList", "assetsList",
    "subSceneList"].Nodup := by decide
  exact ⟨hkeys, trivial, trivial, ⟨trivial, hsentences⟩, ⟨trivial, hassets⟩,
    ⟨trivial, hscenes⟩, trivial⟩

end Numbers

def Sentence.details (depth : Nat) (s : Sentence) : List Line :=
  linesAt depth (label "args") [','] (.array (s.args.map Arg.toJson))
    ++ linesAt depth (label "sentenceAssets") [','] (.array (s.assets.map Asset.toJson))
    ++ linesAt depth (label "subScene") [] (.array (s.subScenes.map .string))

theorem Sentence.linesAt_toJson (depth : Nat) (before after : List Char) (s : Sentence) :
    linesAt depth before after s.toJson =
      [⟨depth, before ++ ['\x7b']⟩,
        ⟨depth + 1, label "command" ++ Text.integer s.command.code ++ [',']⟩,
        ⟨depth + 1, label "commandRaw" ++ quote s.commandRaw.toList ++ [',']⟩,
        ⟨depth + 1, label "content" ++ quote s.content.toList ++ [',']⟩]
        ++ s.details (depth + 1) ++ [⟨depth, '\x7d' :: after⟩] := by
  have hcommand (d : Nat) (b a : List Char) :
      linesAt d b a (.nat s.command.code) = [⟨d, b ++ Text.integer s.command.code ++ a⟩] := rfl
  have hstring (d : Nat) (b a : List Char) (t : String) :
      linesAt d b a (.string t) = [⟨d, b ++ quote t.toList ++ a⟩] := rfl
  rw [Sentence.toJson, linesAt]
  simp only [memberLines, hcommand, hstring, separator, List.isEmpty_cons, List.isEmpty_nil,
    Bool.false_eq_true, if_false, if_true, Sentence.details, List.append_assoc, List.cons_append,
    List.nil_append]

end SceneScript
