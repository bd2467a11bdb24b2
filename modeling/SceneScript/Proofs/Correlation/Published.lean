import SceneScript.Proofs.Correlation.Exact
import SceneScript.Proofs.Json.Fraction
import SceneScript.Proofs.Script.Parts
import SceneScript.Session

namespace SceneScript.Correlation

open Json Text

theorem legible_whole {k : Int} (h : InWord k) : JsonNumber.Legible (.whole k) :=
  JsonNumber.Faithful.legible ⟨k, rfl, h⟩

theorem legible_natural {n : Nat} (h : n < twoTo 64) : JsonNumber.Legible (.whole n) := by
  refine legible_whole ⟨?_, ?_⟩
  · omega
  · have hg : greatestSignificand = twoTo 64 - 1 := rfl
    omega

section Script

variable {text name base : String}

theorem counts_of_mem_parse (name base : String) (hN : (lines text.toList).length < twoTo 64) :
    ∀ x ∈ (Script.parse text name base).sentences, x.Counts JsonNumber.Legible := by
  intro x hx
  obtain ⟨i, line, hi, hline⟩ := Script.mem_parseLines hx
  constructor
  · intro a ha n hn
    rw [hline] at ha
    obtain ⟨k, rfl, hlow, hhigh⟩ | ⟨y, rfl⟩ :=
      (Script.parseLine_written a ha).number_cases hn
    · refine legible_whole ⟨hlow, ?_⟩
      have hg : twoTo 63 - 1 ≤ greatestSignificand := by decide
      have ht : (twoTo 63 : Int) - 1 = ((twoTo 63 - 1 : Nat) : Int) := by decide
      omega
    · exact real_legible y
  · intro a ha
    rw [hline] at ha
    rw [Script.parseLine_lineNumber a ha]
    exact legible_natural (by omega)

theorem parse_legible (name base : String) (hN : (lines text.toList).length < twoTo 64) :
    Each (Regular JsonNumber.Legible) (Script.parse text name base).toJson := by
  have hs := counts_of_mem_parse name base hN
  refine Scene.regular_toJson (fun n hn => legible_natural ?_) hs fun a ha => ?_
  · have h64 : 64 < twoTo 64 := by decide
    omega
  · obtain ⟨x, hx, hax⟩ := List.mem_flatMap.mp ha
    exact (hs x hx).assets a hax

theorem parse_sentences_ne_nil : (Script.parse text name base).sentences ≠ [] := by
  rw [← List.length_pos_iff, Script.parse_sentences_length]
  exact List.length_pos_iff.mpr (Script.lines_ne_nil _)

def published (p : Preferences) (text name base : String) : Session :=
  ((Session.new p Engine.builtin).withScene name base).setText text

theorem published_scene (p : Preferences) :
    (published p text name base).scene = Script.parse text name base := rfl

theorem published_output (p : Preferences) :
    (published p text name base).output.toList = (Script.parse text name base).toJson.pretty :=
  String.toList_ofList

/-- For each line of a script its sentence is selected if and only if no name is mistaken for the
key of the list, no string for a mark before the sentence, and no brace for its end. There are
selections behind the last line where strings are mistaken for marks. -/
theorem selects_iff_unmistakable (p : Preferences) (text name base : String)
    (hN : (lines text.toList).length < twoTo 64) :
    let session := published p text name base
    let output := session.output.toList
    (p.location = true → ∀ line, session.select? line = select? output line) ∧
      select? output 0 = none ∧
      (∀ line, 1 ≤ line → line ≤ (lines text.toList).length →
        ∃ x, session.scene.sentence? line = some x ∧
          (Selects session.scene output line ↔
            (¬ Echoes listWord name.toList ∧ ¬ Echoes listWord base.toList) ∧
            (∀ y ∈ session.scene.sentences.take (line - 1), ∀ t ∈ y.strings,
              ¬ Echoes rawWord t.toList) ∧
            '\x7d' ∉ x.content.toList)) ∧
      ∀ line, (lines text.toList).length < line →
        (select? output line = none ↔
          (lines text.toList).length + (session.scene.sentences.map Sentence.strays).sum
            < line) := by
  intro session output
  have he := parse_legible name base hN
  have hlength := Script.parse_sentences_length text name base
  have houtput : output = (Script.parse text name base).toJson.pretty := published_output p
  refine ⟨fun hp line => ?_, select?_zero _, fun line hl hle => ?_, fun line hlt => ?_⟩
  · exact if_pos hp
  · obtain ⟨i, rfl⟩ : ∃ i, line = i + 1 := ⟨line - 1, by omega⟩
    have hi : i < (Script.parse text name base).sentences.length := by omega
    have hsplit := eq_append_of_getElem? (List.getElem?_eq_getElem hi)
    have hselects := selects_iff he hsplit
    rw [List.length_take, Nat.min_eq_left (Nat.le_of_lt hi), sum_strays_eq_zero_iff] at hselects
    rw [houtput]
    exact ⟨_, List.getElem?_eq_getElem hi, hselects⟩
  · rw [houtput, ← hlength]
    exact select?_eq_none_iff he (by omega)

theorem selects_iff_unmistakable_brace :
    let session := published {} "A:\x7d" "test" ""
    ¬ Selects session.scene session.output.toList 1 := by
  obtain ⟨-, -, hlines, -⟩ :=
    selects_iff_unmistakable {} "A:\x7d" "test" "" (by decide)
  obtain ⟨x, hx, hselects⟩ := hlines 1 (by decide) (by decide)
  have hcontent : (published {} "A:\x7d" "test" "").scene.sentence? 1 =
    some ⟨.say, "A", "\x7d", [⟨"speaker", .text "A"⟩], [], []⟩ := by decide
  obtain rfl := Option.some.inj (hx.symm.trans hcontent)
  intro session h
  exact (hselects.mp h).2.2 (by decide)

/-- The correlation is exact for a script if and only if no name is mistaken for the key of the
list, no string for a mark and no brace for the end of a sentence. -/
theorem exact_iff_unmistakable (p : Preferences) (text name base : String)
    (hN : (lines text.toList).length < twoTo 64) :
    let session := published p text name base
    Exact session.scene session.output.toList (lines text.toList).length ↔
      (¬ Echoes listWord name.toList ∧ ¬ Echoes listWord base.toList) ∧
      (∀ x ∈ session.scene.sentences, ∀ t ∈ x.strings, ¬ Echoes rawWord t.toList) ∧
      ∀ x ∈ session.scene.sentences, '\x7d' ∉ x.content.toList := by
  intro session
  have he := exact_iff_of_legible (parse_legible name base hN)
    parse_sentences_ne_nil
  rw [Script.parse_sentences_length] at he
  rw [published_output, published_scene]
  exact he

theorem exact_iff_unmistakable_spoken :
    let session := published {} "A:hi -next=1;x\nend" "test" ""
    Exact session.scene session.output.toList 2 := by
  have hs : (published {} "A:hi -next=1;x\nend" "test" "").scene.sentences =
    [⟨.say, "A", "hi", [⟨"speaker", .text "A"⟩, ⟨"next", .number (.whole 1)⟩], [], []⟩,
      ⟨.finish, "end", "", [], [], []⟩] := by decide
  refine (exact_iff_unmistakable {} _ _ _ (by decide)).mpr ⟨by decide, ?_, ?_⟩
  · rw [hs]
    decide
  · rw [hs]
    decide

end Script

end SceneScript.Correlation
