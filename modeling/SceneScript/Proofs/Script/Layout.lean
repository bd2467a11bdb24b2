import Mathlib.Data.List.Forall2
import Mathlib.Logic.Relation
import SceneScript.Proofs.Script.Escape

namespace SceneScript.Script

open Text

inductive Ends (statement : List Char) : List Char → Prop
  | bare : Ends statement []
  | comment (text : List Char) : slashes statement % 2 = 0 → Ends statement (';' :: text)

inductive Relaid : List Char → List Char → Prop
  | ending (line : List Char) : Relaid line (line ++ ['\r'])
  | before {blanks : List Char} (line : List Char) : (∀ c ∈ blanks, isBlank c) →
      Relaid line (blanks ++ line)
  | behind {statement blanks tail : List Char} : Shielded ';' statement → Ends statement tail →
      (∀ c ∈ blanks, isBlank c) → Relaid (statement ++ tail) (statement ++ blanks ++ tail)
  | comment {statement tail tail' : List Char} : trim statement ≠ [] → Shielded ';' statement →
      Ends statement tail → Ends statement tail' → Relaid (statement ++ tail) (statement ++ tail')

/-- What the sentence of a line depends on: its statement, or its comment where that is blank. -/
def reading (line : List Char) : List Char × List Char :=
  let statement := trim (cutComment line).1
  (statement, if statement = [] then trim (cutComment line).2 else [])

theorem parseLine_of_reading {line line' : List Char} (h : reading line = reading line')
    (base : List Char) (number : Nat) :
    parseLine base number line = parseLine base number line' := by
  obtain ⟨hstatement, hcomment⟩ := Prod.mk.inj h
  simp only [parseLine, hstatement]
  split
  · rename_i hblank
    rw [List.isEmpty_iff] at hblank
    rw [hstatement, if_pos hblank, if_pos hblank] at hcomment
    rw [hcomment]
  · rfl

theorem isBlank_ne {c d : Char} (hc : isBlank c) (hd : isBlank d = false) : c ≠ d := by
  rintro rfl
  simp [hc] at hd

theorem shielded_append_blanks {statement blanks : List Char} (h : Shielded ';' statement)
    (hb : ∀ c ∈ blanks, isBlank c) : Shielded ';' (statement ++ blanks) := by
  induction blanks using List.reverseRecOn with
  | nil => rwa [List.append_nil]
  | append_singleton blanks c ih =>
    have hc : c ≠ ';' := isBlank_ne (hb c (by simp)) (by decide)
    rw [← List.append_assoc, shielded_concat]
    exact ⟨ih fun d hd => hb d (List.mem_append_left _ hd), fun he => absurd he hc⟩

theorem slashes_append_blanks {statement blanks : List Char} (h : slashes statement % 2 = 0)
    (hb : ∀ c ∈ blanks, isBlank c) : slashes (statement ++ blanks) % 2 = 0 := by
  rcases List.eq_nil_or_concat blanks with rfl | ⟨blanks, c, rfl⟩
  · rwa [List.append_nil]
  · have hc : c ≠ '\\' := isBlank_ne (hb c (by simp)) (by decide)
    rw [List.concat_eq_append, ← List.append_assoc, slashes_concat, if_neg hc]

theorem Ends.append_blanks {statement blanks tail : List Char} (h : Ends statement tail)
    (hb : ∀ c ∈ blanks, isBlank c) : Ends (statement ++ blanks) tail := by
  cases h with
  | bare => exact .bare
  | comment text hs => exact .comment text (slashes_append_blanks hs hb)

theorem exists_statement (line : List Char) :
    ∃ statement tail, line = statement ++ tail ∧ Shielded ';' statement ∧ Ends statement tail := by
  obtain hline | ⟨statement, text, hline, hs, heven⟩ := exists_shielded ';' line
  · exact ⟨line, [], by simp, hline, .bare⟩
  · exact ⟨statement, ';' :: text, hline, hs, .comment text heven⟩

theorem cutComment_statement {statement tail : List Char} (hs : Shielded ';' statement)
    (ht : Ends statement tail) : cutComment (statement ++ tail) = (statement, tail.tail) := by
  cases ht with
  | bare => simp [cutComment, hs.cutUnescaped?_eq_none]
  | comment text heven =>
    rw [cutComment, hs.cutUnescaped?_eq_some heven (by decide)]
    rfl

theorem reading_statement {statement tail : List Char} (hs : Shielded ';' statement)
    (ht : Ends statement tail) : reading (statement ++ tail) =
      (trim statement, if trim statement = [] then trim tail.tail else []) := by
  rw [reading, cutComment_statement hs ht]

theorem reading_blanks_append {blanks : List Char} (hb : ∀ c ∈ blanks, isBlank c)
    (line : List Char) : reading (blanks ++ line) = reading line := by
  have hu : Uncut ';' blanks := uncut_of_forall fun c hc =>
    ⟨isBlank_ne (hb c hc) (by decide), isBlank_ne (hb c hc) (by decide)⟩
  have hcut : cutComment (blanks ++ line) =
      (blanks ++ (cutComment line).1, (cutComment line).2) := by
    rw [cutComment, hu, cutComment]
    cases cutUnescaped? ';' line <;> rfl
  simp only [reading, hcut, trim_blanks_append hb]

theorem reading_append_blanks {blanks : List Char} (hb : ∀ c ∈ blanks, isBlank c)
    (line : List Char) : reading (line ++ blanks) = reading line := by
  obtain ⟨statement, tail, rfl, hs, ht⟩ := exists_statement line
  rw [reading_statement hs ht]
  cases ht with
  | bare =>
    have h := reading_statement (shielded_append_blanks hs hb) .bare
    simpa [trim_append_blanks hb] using h
  | comment text hslashes =>
    have h := reading_statement hs (.comment (text ++ blanks) hslashes)
    simpa [trim_append_blanks hb] using h

theorem reading_dropEndWhile (line : List Char) :
    reading (dropEndWhile (· == '\r') line) = reading line := by
  induction line using List.reverseRecOn with
  | nil => rfl
  | append_singleton line c ih =>
    rw [dropEndWhile_concat]
    split
    · rename_i hc
      obtain rfl : c = '\r' := eq_of_beq hc
      have hb : ∀ d ∈ ['\r'], isBlank d := List.all_eq_true.mp rfl
      rw [ih, reading_append_blanks hb]
    · rfl

theorem Relaid.reading_eq {line line' : List Char} (h : Relaid line line') :
    reading line = reading line' := by
  cases h with
  | ending line => exact (reading_append_blanks (List.all_eq_true.mp rfl) line).symm
  | before line hb => exact (reading_blanks_append hb line).symm
  | behind hs ht hb =>
    rw [reading_statement hs ht, reading_statement (shielded_append_blanks hs hb)
      (ht.append_blanks hb), trim_append_blanks hb]
  | comment hn hs ht ht' =>
    rw [reading_statement hs ht, reading_statement hs ht', if_neg hn, if_neg hn]

theorem reading_of_eqvGen {line line' : List Char} (h : Relation.EqvGen Relaid line line') :
    reading line = reading line' := by
  induction h with
  | rel _ _ h => exact h.reading_eq
  | refl _ => rfl
  | symm _ _ _ ih => exact ih.symm
  | trans _ _ _ _ _ h₁ h₂ => exact h₁.trans h₂

theorem parseLines_relaid {ls ls' : List (List Char)}
    (h : List.Forall₂ (Relation.EqvGen Relaid) ls ls') (base : List Char) (number : Nat) :
    parseLines base number ls = parseLines base number ls' := by
  induction h generalizing number with
  | nil => rfl
  | @cons line line' ls ls' hline _ ih =>
    have hreading : reading (dropEndWhile (· == '\r') line) =
        reading (dropEndWhile (· == '\r') line') := by
      rw [reading_dropEndWhile, reading_dropEndWhile, reading_of_eqvGen hline]
    rw [parseLines, parseLines, parseLine_of_reading hreading, ih]

/-- Scripts whose lines differ in their layout only have the same scene. -/
theorem parse_relaid {text text' : String}
    (h : List.Forall₂ (Relation.EqvGen Relaid) (lines text.toList) (lines text'.toList))
    (name base : String) : parse text name base = parse text' name base := by
  simp only [parse, parseLines_relaid h]

theorem parse_relaid_comments :
    parse "A:a\\;b;old\nend" "start.txt" "game" =
      parse "\t A:a\\;b \r;new;er\r\n\u3000end;" "start.txt" "game" := by
  have hspoken : Shielded ';' "A:a\\;b".toList := by decide
  have hold : Ends "A:a\\;b".toList ";old".toList := .comment "old".toList rfl
  have hnew : Ends "A:a\\;b".toList ";new;er".toList := .comment "new;er".toList rfl
  have hfirst : Relation.EqvGen Relaid ("A:a\\;b".toList ++ ";old".toList)
      ("\t ".toList ++ ("A:a\\;b".toList ++ " \r".toList ++ ";new;er".toList) ++ ['\r']) := by
    have hcomment := Relaid.comment (by decide) hspoken hold hnew
    have hblanks : ∀ c ∈ " \r".toList, isBlank c := List.all_eq_true.mp (by decide)
    have hbehind := Relaid.behind hspoken hnew hblanks
    have htab : ∀ c ∈ "\t ".toList, isBlank c := List.all_eq_true.mp (by decide)
    have hbefore := Relaid.before ("A:a\\;b".toList ++ " \r".toList ++ ";new;er".toList) htab
    exact (((Relation.EqvGen.rel _ _ hcomment).trans _ _ _ (.rel _ _ hbehind)).trans _ _ _
      (.rel _ _ hbefore)).trans _ _ _ (.rel _ _ (.ending _))
  have hsecond : Relation.EqvGen Relaid ("end".toList ++ [])
      ("\u3000".toList ++ ("end".toList ++ ";".toList)) := by
    have hcomment : Relaid ("end".toList ++ []) ("end".toList ++ ";".toList) :=
      .comment (by decide) (by decide) .bare (.comment [] rfl)
    have hwide : ∀ c ∈ "\u3000".toList, isBlank c := List.all_eq_true.mp (by decide)
    have hbefore := Relaid.before ("end".toList ++ ";".toList) hwide
    exact (Relation.EqvGen.rel _ _ hcomment).trans _ _ _ (.rel _ _ hbefore)
  have hlines : lines "A:a\\;b;old\nend".toList =
      ["A:a\\;b".toList ++ ";old".toList, "end".toList ++ []] := by decide
  have hlines' : lines "\t A:a\\;b \r;new;er\r\n\u3000end;".toList =
      ["\t ".toList ++ ("A:a\\;b".toList ++ " \r".toList ++ ";new;er".toList) ++ ['\r'],
        "\u3000".toList ++ ("end".toList ++ ";".toList)] := by decide
  refine parse_relaid ?_ "start.txt" "game"
  rw [hlines, hlines']
  exact .cons hfirst (.cons hsecond .nil)

end SceneScript.Script
