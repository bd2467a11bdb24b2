import SceneScript.Proofs.Correlation.Marked
import SceneScript.Proofs.Scene.Written

namespace SceneScript

open Json Correlation

def Arg.strings (a : Arg) : List String :=
  a.key :: a.value.text?.toList

def Asset.strings (a : Asset) : List String :=
  [a.name, a.url]

def Sentence.strings (s : Sentence) : List String :=
  s.content :: (s.args.flatMap Arg.strings ++ s.assets.flatMap Asset.strings ++ s.subScenes)

def isStray (s : String) : Bool :=
  decide (Echoes rawWord s.toList)

def Sentence.strays (s : Sentence) : Nat :=
  s.strings.countP isStray

theorem Sentence.strays_eq_zero_iff {s : Sentence} :
    s.strays = 0 ↔ ∀ t ∈ s.strings, ¬ Echoes rawWord t.toList := by
  simp [strays, isStray]

namespace Correlation

def marks (key : Option String) (v : Json) : Nat :=
  (shownAt key v).countP (echoes rawWord)

def itemMarks (items : List Json) : Nat :=
  (shownItems items).countP (echoes rawWord)

def memberMarks (members : List (String × Json)) : Nat :=
  (shownMembers members).countP (echoes rawWord)

theorem itemMarks_cons (item : Json) (items : List Json) :
    itemMarks (item :: items) = marks none item + itemMarks items := by
  simp [itemMarks, marks, shownItems]

theorem memberMarks_cons (key : String) (value : Json) (members : List (String × Json)) :
    memberMarks ((key, value) :: members) = marks (some key) value + memberMarks members := by
  simp [memberMarks, marks, shownMembers]

theorem marks_key (key : String) (h : ¬ Echoes rawWord key.toList) (v : Json) :
    marks (some key) v = marks none v := by
  have hm := congrArg (List.countP id) (map_echoes_shownAt h v)
  rw [List.countP_map, List.countP_map] at hm
  exact hm

@[simp]
theorem marks_array (items : List Json) : marks none (.array items) = itemMarks items := by
  cases items <;> simp [marks, itemMarks, shownAt, shownItems, echoes]

@[simp]
theorem marks_object (members : List (String × Json)) :
    marks none (.object members) = memberMarks members := by
  cases members <;> simp [marks, memberMarks, shownAt, shownMembers, echoes]

@[simp]
theorem marks_string (s : String) : marks none (.string s) = if isStray s then 1 else 0 := by
  simp [marks, shownAt, echoes, isStray, List.countP_singleton]

@[simp]
theorem marks_bool (b : Bool) : marks none (.bool b) = 0 := by
  simp [marks, shownAt, echoes]

@[simp]
theorem marks_number (n : JsonNumber) : marks none (.number n) = 0 := by
  simp [marks, shownAt, echoes]

theorem itemMarks_map {α : Type} {f : α → Json} {g : α → List String}
    (h : ∀ x, marks none (f x) = (g x).countP isStray) (xs : List α) :
    itemMarks (xs.map f) = (xs.flatMap g).countP isStray := by
  induction xs with
  | nil => rfl
  | cons x xs ih =>
    rw [List.map_cons, itemMarks_cons, h, ih, List.flatMap_cons, List.countP_append]

theorem itemMarks_strings (xs : List String) :
    itemMarks (xs.map .string) = xs.countP isStray := by
  have h := itemMarks_map (f := .string) (g := fun t => [t])
    (by simp [List.countP_singleton]) xs
  rw [h, List.flatMap_singleton']

theorem marks_arg (a : Arg) : marks none a.toJson = a.strings.countP isStray := by
  have hkey := marks_key "key" (by decide) (.string a.key)
  have hvalue := marks_key "value" (by decide) a.value.toJson
  rw [Arg.toJson, marks_object, memberMarks_cons, memberMarks_cons, hkey, hvalue, marks_string,
    Arg.strings, List.countP_cons]
  cases a.value <;> simp [ArgValue.toJson, ArgValue.text?, memberMarks, shownMembers, Nat.add_comm,
    List.countP_singleton]

theorem marks_asset (a : Asset) : marks none a.toJson = a.strings.countP isStray := by
  have hname := marks_key "name" (by decide) (.string a.name)
  have hkind := marks_key "type" (by decide) (.nat a.kind.code)
  have hurl := marks_key "url" (by decide) (.string a.url)
  have hline := marks_key "lineNumber" (by decide) (.nat a.lineNumber)
  rw [Asset.toJson, marks_object, memberMarks_cons, memberMarks_cons, memberMarks_cons,
    memberMarks_cons, hname, hkind, hurl, hline]
  simp [Json.nat, memberMarks, shownMembers, Asset.strings, List.countP_cons, Nat.add_comm]

end Correlation

def Sentence.shownDetails (s : Sentence) : List (List String) :=
  shownAt (some "args") (.array (s.args.map Arg.toJson))
    ++ shownAt (some "sentenceAssets") (.array (s.assets.map Asset.toJson))
    ++ shownAt (some "subScene") (.array (s.subScenes.map .string))

theorem Sentence.shownAt_toJson (s : Sentence) :
    shownAt none s.toJson =
      [[], ["command"], ["commandRaw", s.commandRaw], ["content", s.content]]
        ++ s.shownDetails ++ [[]] := by
  rw [toJson, shownAt]
  simp only [shownMembers, Json.nat, shownAt_number, shownAt_string, shownDetails,
    List.append_assoc, List.cons_append, List.nil_append]
  rfl

def Scene.list (s : Scene) : Json :=
  .array (s.sentences.map Sentence.toJson)

theorem Scene.shownAt_toJson (s : Scene) : ∃ rest,
    shownAt none s.toJson =
      [[], ["sceneName", s.name], ["sceneUrl", s.url]]
        ++ shownAt (some "sentenceList") s.list ++ rest := by
  refine ⟨shownAt (some "assetsList") (.array (s.assets.map Asset.toJson))
    ++ shownAt (some "subSceneList") (.array (s.subScenes.map .string)) ++ [[]], ?_⟩
  rw [toJson, shownAt]
  simp only [shownMembers, shownAt_string, list, List.append_assoc, List.cons_append,
    List.nil_append]
  rfl

namespace Correlation

theorem marks_sentence (s : Sentence) : marks none s.toJson = 1 + s.strays := by
  have hargs := marks_key "args" (by decide) (.array (s.args.map Arg.toJson))
  have hassets := marks_key "sentenceAssets" (by decide)
    (.array (s.assets.map Asset.toJson))
  have hscenes := marks_key "subScene" (by decide) (.array (s.subScenes.map .string))
  rw [marks_array, itemMarks_map marks_arg] at hargs
  rw [marks_array, itemMarks_map marks_asset] at hassets
  rw [marks_array, itemMarks_strings] at hscenes
  have hdetails : s.shownDetails.countP (echoes rawWord) =
      (s.args.flatMap Arg.strings).countP isStray + (s.assets.flatMap Asset.strings).countP isStray
        + s.subScenes.countP isStray := by
    rw [Sentence.shownDetails, List.countP_append, List.countP_append]
    simp only [marks] at hargs hassets hscenes
    rw [hargs, hassets, hscenes]
  have hraw : echoes rawWord ["commandRaw", s.commandRaw] = true := by
    have hd : Echoes rawWord "commandRaw".toList := by decide
    rw [echoes, List.any_cons, decide_eq_true hd, Bool.true_or]
  have hcommand : echoes rawWord ["command"] = false := by decide
  have hcontent : echoes rawWord ["content", s.content] = isStray s.content := by
    have hd : ¬ Echoes rawWord "content".toList := by decide
    rw [echoes, List.any_cons, decide_eq_false hd, Bool.false_or, List.any_cons, List.any_nil,
      Bool.or_false, isStray]
  have hnil : echoes rawWord [] = false := rfl
  simp only [marks, Sentence.shownAt_toJson, List.countP_append, List.countP_cons, List.countP_nil,
    hdetails, hraw, hcommand, hcontent, hnil, Sentence.strays, Sentence.strings, if_true,
    Bool.false_eq_true, if_false]
  omega

theorem itemMarks_sentences (xs : List Sentence) :
    itemMarks (xs.map Sentence.toJson) = xs.length + (xs.map Sentence.strays).sum := by
  induction xs with
  | nil => rfl
  | cons x xs ih =>
    rw [List.map_cons, itemMarks_cons, marks_sentence, ih, List.length_cons, List.map_cons,
      List.sum_cons]
    omega

end Correlation
end SceneScript
