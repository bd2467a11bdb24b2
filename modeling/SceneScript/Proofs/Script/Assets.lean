import Mathlib.Data.List.Induction
import SceneScript.Proofs.Script.Concatenation
import SceneScript.Proofs.Script.Parts
import SceneScript.Proofs.Text.Trimming

namespace List

variable {α : Type} [DecidableEq α]

def firstOccurrences (l : List α) : List α :=
  (l.zipIdx.filter fun p => p.1 ∉ l.take p.2).map Prod.fst

theorem firstOccurrences_concat (l : List α) (a : α) :
    (l ++ [a]).firstOccurrences = l.firstOccurrences ++ if a ∈ l then [] else [a] := by
  have hfront : l.zipIdx.filter (fun p => p.1 ∉ (l ++ [a]).take p.2) =
      l.zipIdx.filter fun p => p.1 ∉ l.take p.2 := by
    apply filter_congr
    intro p hp
    have hlt := snd_lt_of_mem_zipIdx hp
    rw [take_append_of_le_length (by omega)]
  have hlast : (l ++ [a]).take l.length = l := take_left
  simp only [firstOccurrences, zipIdx_append, filter_append, hfront, map_append, zipIdx_cons,
    zipIdx_nil, filter_cons, filter_nil, Nat.zero_add, hlast]
  by_cases ha : a ∈ l <;> simp [ha]

theorem eraseDups_eq_firstOccurrences (l : List α) : l.eraseDups = l.firstOccurrences := by
  induction l using reverseRecOn with
  | nil => rfl
  | append_singleton l a ih =>
    rw [eraseDups_append, firstOccurrences_concat, ih]
    by_cases ha : a ∈ l <;> simp [removeAll, ha, eraseDups_cons]

theorem mem_firstOccurrences {l : List α} {a : α} : a ∈ l.firstOccurrences ↔ a ∈ l := by
  rw [← eraseDups_eq_firstOccurrences, mem_eraseDups]

theorem nodup_firstOccurrences (l : List α) : l.firstOccurrences.Nodup := by
  induction l using reverseRecOn with
  | nil => exact nodup_nil
  | append_singleton l a ih =>
    rw [firstOccurrences_concat]
    split
    · rwa [append_nil]
    · rename_i ha
      refine nodup_append.mpr ⟨ih, pairwise_singleton _ a, ?_⟩
      rintro b hb c hc rfl
      exact ha (mem_singleton.mp hc ▸ mem_firstOccurrences.mp hb)

end List

namespace SceneScript

open Text

/-- The address of an asset: its name where that is absolute, and otherwise the base path without
its last slashes, the folder of its kind and its name with slashes between them. -/
inductive Address (base : List Char) (kind : AssetKind) (name : List Char) : List Char → Prop
  | absolute : "://".toList <:+: name → Address base kind name name
  | below {root slashes : List Char} : ¬"://".toList <:+: name → base = root ++ slashes →
      (∀ c ∈ slashes, c = '/') → root.getLast? ≠ some '/' →
      Address base kind name
        (['/'].intercalate ([root].filter (· ≠ []) ++ [kind.folder.toList, name]))

def sceneNamesOf (assets : List Asset) : List String :=
  (assets.filter (·.kind = .scene)).map Asset.name

theorem sceneNamesOf_flatMap (ss : List Sentence) :
    sceneNamesOf (ss.flatMap Sentence.assets) = ss.flatMap fun x => sceneNamesOf x.assets := by
  simp [sceneNamesOf, List.filter_flatMap, List.map_flatMap]

namespace Script

theorem assetUrl_address (base : List Char) (kind : AssetKind) (name : List Char) :
    Address base kind name (assetUrl base kind name) := by
  by_cases habsolute : "://".toList <:+: name
  · rw [assetUrl, if_pos (before?_isSome_iff.mpr habsolute)]
    exact .absolute habsolute
  · obtain ⟨slashes, hbase, hslashes⟩ := exists_dropEndWhile (· == '/') base
    have hroot : (dropEndWhile (· == '/') base).getLast? ≠ some '/' := by
      intro hlast
      simpa using getLast?_dropEndWhile (· == '/') base '/' hlast
    have hbelow : assetUrl base kind name = ['/'].intercalate
        ([dropEndWhile (· == '/') base].filter (· ≠ []) ++ [kind.folder.toList, name]) := by
      rw [assetUrl, if_neg (mt before?_isSome_iff.mp habsolute)]
      cases dropEndWhile (· == '/') base <;> simp [List.intercalate_cons_of_ne_nil]
    rw [hbelow]
    exact .below habsolute hbase (fun c hc => eq_of_beq (hslashes c hc)) hroot

theorem isAssetName_of_mem_choiceTargets {content target : List Char}
    (h : target ∈ choiceTargets content) : isAssetName target := by
  obtain ⟨option, -, hoption⟩ := List.mem_filterMap.mp h
  obtain ⟨⟨label, behind⟩, -, hcut⟩ := Option.bind_eq_some_iff.mp hoption
  dsimp only at hcut
  split at hcut
  · rename_i hname
    rwa [← Option.some.inj hcut]
  · simp at hcut

theorem isAssetName_of_mem_assetNames {command : Command} {content : List Char} {args : List Arg}
    {kind : AssetKind} {name : List Char} (h : (kind, name) ∈ assetNames command content args) :
    isAssetName name := by
  rcases List.mem_append.mp h with h | hvoice
  · rcases List.mem_append.mp h with hcontent | hchoice
    · split at hcontent
      · split at hcontent
        · rename_i hname
          obtain ⟨-, rfl⟩ := Prod.mk.inj (List.mem_singleton.mp hcontent)
          exact hname
        · simp at hcontent
      · simp at hcontent
    · split at hchoice
      · obtain ⟨target, htarget, heq⟩ := List.mem_map.mp hchoice
        obtain ⟨-, rfl⟩ := Prod.mk.inj heq
        exact isAssetName_of_mem_choiceTargets htarget
      · simp at hchoice
  · split at hvoice
    · split at hvoice
      · rename_i hname
        obtain ⟨-, rfl⟩ := Prod.mk.inj (List.mem_singleton.mp hvoice)
        exact hname
      · simp at hvoice
    · simp at hvoice

theorem filter_assetNames (command : Command) (content : List Char) (args : List Arg) :
    ((assetNames command content args).filter (·.1 = .scene)).map Prod.snd =
      sceneNames command content := by
  rw [← List.append_nil (sceneNames command content)]
  simp only [assetNames, sceneNames, List.filter_append, List.map_append]
  refine congrArg₂ (· ++ ·) (congrArg₂ (· ++ ·) ?content ?choice) ?voice
  case content =>
    cases contentKind? command with
    | none => simp
    | some kind =>
      by_cases hname : isAssetName content <;> by_cases hkind : kind = .scene <;> simp [*]
  case choice =>
    split
    · simp [List.filter_map, Function.comp_def]
    · rfl
  case voice =>
    split
    · split <;> simp
    · rfl

theorem sentence_subScenes (base : List Char) (number : Nat) (command : Command)
    (raw content : List Char) (args : List Arg) :
    (sentence base number command raw content args).subScenes =
      sceneNamesOf (sentence base number command raw content args).assets := by
  simp only [sentence, ← filter_assetNames command content args, sceneNamesOf, List.filter_map,
    List.map_map]
  rfl

theorem parseLine_subScenes (base : List Char) (number : Nat) (line : List Char) :
    (parseLine base number line).subScenes = sceneNamesOf (parseLine base number line).assets := by
  obtain ⟨content, h⟩ | ⟨command, raw, content, args, -, h⟩ := parseLine_cases base number line
  · rw [h]
    rfl
  · rw [h]
    exact sentence_subScenes ..

theorem parseLine_assets {base : List Char} {number : Nat} {line : List Char} {a : Asset}
    (h : a ∈ (parseLine base number line).assets) :
    a.lineNumber = number ∧ isAssetName a.name.toList ∧
      Address base a.kind a.name.toList a.url.toList := by
  obtain ⟨content, hline⟩ | ⟨command, raw, content, args, -, hline⟩ :=
    parseLine_cases base number line
  · simp [hline] at h
  · rw [hline, sentence] at h
    obtain ⟨⟨kind, name⟩, hname, rfl⟩ := List.mem_map.mp h
    refine ⟨rfl, ?_⟩
    simp only [String.toList_ofList]
    exact ⟨isAssetName_of_mem_assetNames hname, assetUrl_address base kind name⟩

theorem parseLines_subScenes (base : List Char) (number : Nat) (ls : List (List Char)) :
    (parseLines base number ls).flatMap Sentence.subScenes =
      sceneNamesOf ((parseLines base number ls).flatMap Sentence.assets) := by
  rw [sceneNamesOf_flatMap, List.flatMap_def, List.flatMap_def]
  congr 1
  apply List.map_congr_left
  intro x hx
  obtain ⟨i, line, -, rfl⟩ := mem_parseLines hx
  exact parseLine_subScenes ..

theorem sentence?_parse {text name base : String} {n : Nat} {x : Sentence}
    (h : (parse text name base).sentence? n = some x) :
    ∃ line, x = parseLine base.toList n line := by
  cases n with
  | zero => simp [Scene.sentence?] at h
  | succ n =>
    simp only [Scene.sentence?, parse, parseLines_getElem?, Option.map_eq_some_iff] at h
    obtain ⟨line, -, rfl⟩ := h
    exact ⟨_, by rw [Nat.add_comm]⟩

/-- The assets of a scene are those of its sentences. Each has the line of its sentence, a name and
the address of that name. The scenes that a sentence leads to are its assets of that kind, and those
that the script leads to are all of these, each where it first occurs. -/
theorem parse_assets_agree (text name base : String) :
    let scene := parse text name base
    scene.assets = scene.sentences.flatMap Sentence.assets ∧
    (∀ n x, scene.sentence? n = some x →
      (∀ a ∈ x.assets, a.lineNumber = n ∧ a.name ≠ "" ∧ a.name ≠ "none" ∧
        Address base.toList a.kind a.name.toList a.url.toList) ∧
      x.subScenes = sceneNamesOf x.assets) ∧
    scene.subScenes = (sceneNamesOf scene.assets).firstOccurrences ∧
    scene.subScenes.Nodup ∧
    ∀ s, s ∈ scene.subScenes ↔ ∃ a ∈ scene.assets, a.kind = .scene ∧ a.name = s := by
  intro scene
  have hscenes : scene.subScenes = (sceneNamesOf scene.assets).firstOccurrences := by
    rw [← List.eraseDups_eq_firstOccurrences]
    exact congrArg List.eraseDups (parseLines_subScenes ..)
  refine ⟨rfl, ?_, hscenes, ?_, ?_⟩
  · intro n x hx
    obtain ⟨line, rfl⟩ := sentence?_parse hx
    refine ⟨fun a ha => ?_, parseLine_subScenes ..⟩
    obtain ⟨hnumber, hname, haddress⟩ := parseLine_assets ha
    simp only [isAssetName, Bool.and_eq_true, bne_iff_ne, Bool.not_eq_true',
      List.isEmpty_eq_false_iff] at hname
    exact ⟨hnumber, by simpa using hname.1, fun hnone => hname.2 (by rw [hnone]), haddress⟩
  · rw [hscenes]
    exact List.nodup_firstOccurrences _
  · intro s
    rw [hscenes, List.mem_firstOccurrences]
    simp [sceneNamesOf, and_assoc]

theorem parse_assets_agree_repeated :
    let scene := parse "callScene:a.txt -vocal=v.ogg\nchoose:Left:b.txt|Right:a.txt\nbgm:s.mp3"
      "start" "game//"
    scene.subScenes = ["a.txt", "b.txt"] ∧
    ∃ x, scene.sentence? 2 = some x ∧ x.subScenes = ["b.txt", "a.txt"] ∧
      ∀ a ∈ x.assets, a.lineNumber = 2 ∧
        Address "game//".toList a.kind a.name.toList a.url.toList := by
  intro scene
  obtain ⟨-, hsentences, hscenes, -⟩ := parse_assets_agree
    "callScene:a.txt -vocal=v.ogg\nchoose:Left:b.txt|Right:a.txt\nbgm:s.mp3" "start" "game//"
  have hnames : (scene.sentence? 2).map Sentence.subScenes = some ["b.txt", "a.txt"] := by
    decide +kernel
  obtain ⟨x, hx, hx'⟩ := Option.map_eq_some_iff.mp hnames
  refine ⟨?_, x, hx, hx', fun a ha => ?_⟩
  · rw [hscenes]
    decide +kernel
  · obtain ⟨hnumber, -, -, haddress⟩ := (hsentences 2 x hx).1 a ha
    exact ⟨hnumber, haddress⟩

end Script
end SceneScript
