import SceneScript.Proofs.Script.Layout

namespace SceneScript.Script

open Text

theorem splitDash_concat {c : Char} (hc : c ≠ '-') (s : List Char) :
    ∃ front last, splitDash s = front ++ [last] ∧ splitDash (s ++ [c]) = front ++ [last ++ [c]] := by
  induction s using splitDash.induct with
  | case1 => exact ⟨[], [], rfl, by simp [splitDash]⟩
  | case2 s ih =>
    obtain ⟨front, last, hs, hconcat⟩ := ih
    exact ⟨[] :: front, last, by simp [splitDash, hs], by simp [splitDash, hconcat]⟩
  | case3 d s hd ih =>
    have hopens : ∀ r, d = ' ' → s ++ [c] = '-' :: r → False := by
      intro r hspace hdash
      cases s with
      | nil => exact hc (List.cons.inj hdash).1
      | cons e s =>
        obtain ⟨rfl, -⟩ := List.cons.inj hdash
        exact hd s hspace rfl
    obtain ⟨front, last, hs, hconcat⟩ := ih
    rw [List.cons_append, splitDash.eq_3 _ _ hd, splitDash.eq_3 _ _ hopens, hs, hconcat]
    cases front with
    | nil => exact ⟨[], d :: last, rfl, rfl⟩
    | cons first front => exact ⟨(d :: first) :: front, last, rfl, rfl⟩

theorem splitArgs_append_blanks {blanks : List Char} (hb : ∀ c ∈ blanks, isBlank c)
    (body : List Char) : splitArgs (body ++ blanks) = splitArgs body := by
  induction blanks using List.reverseRecOn with
  | nil => rw [List.append_nil]
  | append_singleton blanks c ih =>
    have hc : ∀ d ∈ [c], isBlank d := fun d hd => hb d (List.mem_append_right _ hd)
    have hdash : c ≠ '-' := isBlank_ne (hb c (by simp)) (by decide)
    rw [← List.append_assoc, ← ih fun d hd => hb d (List.mem_append_left _ hd)]
    obtain ⟨front, last, hs, hconcat⟩ := splitDash_concat hdash (body ++ blanks)
    have harg : arg? (last ++ [c]) = arg? last := by simp only [arg?, trim_append_blanks hc]
    cases front with
    | nil =>
      rw [List.nil_append] at hs hconcat
      simp only [splitArgs, hs, hconcat, List.flatMap_nil, List.append_nil, trim_append_blanks hc]
    | cons first front =>
      have hkept : ∃ blank, kept (last ++ [c]) = kept last ++ blank ∧ ∀ d ∈ blank, isBlank d := by
        by_cases hlast : (arg? last).isSome
        · exact ⟨[], by simp [kept, harg, hlast], by simp⟩
        · exact ⟨[c], by simp [kept, harg, hlast], hc⟩
      obtain ⟨blank, hkept, hblank⟩ := hkept
      have hread : [last ++ [c]].filterMap arg? = [last].filterMap arg? := by
        simp only [List.filterMap_cons, harg]
      simp only [splitArgs, hs, hconcat, List.cons_append, List.flatMap_append,
        List.flatMap_singleton, hkept, ← List.append_assoc, trim_append_blanks hblank,
        List.filterMap_append, hread]

theorem parse_sentences_line {line : List Char} (h : '\n' ∉ line) (name base : String) :
    (parse (String.ofList line) name base).sentences = [parseLine base.toList 1 line] := by
  have hlines : lines line = [line] := List.splitOn_eq_singleton h
  simp only [parse, String.toList_ofList, hlines, parseLines,
    parseLine_of_reading (reading_dropEndWhile line)]

def headed (head body : List Char) : List Char :=
  head ++ ':' :: body

theorem newline_not_mem_headed {head body : List Char} (hh : '\n' ∉ head) (hb : '\n' ∉ body) :
    '\n' ∉ headed head body := by
  simp [headed, hh, hb]

section

variable {head body : List Char} (hne : head ≠ []) (ht : Trimmed head)
  (hcolon : Uncut ':' head) (hsemicolon : Uncut ';' head) (hbody : cutUnescaped? ';' body = none)

include hcolon in
theorem cutUnescaped?_headed : cutUnescaped? ':' (headed head body) = some (head, body) := by
  rw [headed, hcolon, cutUnescaped?_cons (by decide)]
  simp

include hsemicolon hbody in
theorem cutComment_headed : cutComment (headed head body) = (headed head body, []) := by
  have hmark : Uncut ';' [':'] := uncut_singleton (by decide) (by decide)
  have hline := hsemicolon.append hmark body
  rw [List.append_assoc, List.singleton_append, hbody] at hline
  rw [cutComment, headed, hline]
  rfl

include hne ht in
theorem trim_headed : trim (headed head body) = headed head (dropEndWhile isBlank body) := by
  obtain ⟨blanks, hsolid, hblanks⟩ := exists_dropEndWhile isBlank body
  have hmark : EndsSolid [':'] := endsSolid_singleton (by decide)
  have htrimmed : Trimmed (headed head (dropEndWhile isBlank body)) :=
    ⟨startsSolid_append hne ht.starts,
      endsSolid_append ht.ends (endsSolid_append hmark (endsSolid_dropEndWhile body))⟩
  have hline : headed head body = headed head (dropEndWhile isBlank body) ++ blanks := by
    rw [headed, headed, List.append_assoc, List.cons_append, ← hsolid]
  rw [hline, trim_append_blanks hblanks, htrimmed.trim_eq]

theorem splitArgs_dropEndWhile (body : List Char) :
    splitArgs (dropEndWhile isBlank body) = splitArgs body := by
  obtain ⟨blanks, hsolid, hblanks⟩ := exists_dropEndWhile isBlank body
  conv => rhs; rw [hsolid, splitArgs_append_blanks hblanks]

theorem isEmpty_headed (head body : List Char) : (headed head body).isEmpty = false := by
  simp [headed]

include hne ht hcolon hsemicolon hbody

theorem parseLine_keyword {c : Command} (hk : Command.ofKeyword? (String.ofList head) = some c)
    (hsay : c ≠ .say) (base : List Char) (number : Nat) :
    parseLine base number (headed head body) =
      sentence base number c head (splitArgs body).1 (splitArgs body).2 := by
  simp only [parseLine, cutComment_headed hsemicolon hbody, trim_headed hne ht, isEmpty_headed,
    resolve, cutUnescaped?_headed hcolon, ht.trim_eq, hk, splitArgs_dropEndWhile, hsay,
    Bool.false_eq_true, if_false]

theorem parseLine_speaker (hk : Command.ofKeyword? (String.ofList head) = none)
    (base : List Char) (number : Nat) :
    parseLine base number (headed head body) =
      sentence base number .say head (splitArgs body).1
        (settleSpeaker (⟨"speaker", .text (String.ofList head)⟩ :: (splitArgs body).2)) := by
  have hhead : head.isEmpty = false := List.isEmpty_eq_false_iff.mpr hne
  simp only [parseLine, cutComment_headed hsemicolon hbody, trim_headed hne ht, isEmpty_headed,
    resolve, cutUnescaped?_headed hcolon, ht.trim_eq, hk, splitArgs_dropEndWhile, hhead,
    Bool.false_eq_true, if_false, if_true, List.singleton_append]

end

end SceneScript.Script
