import SceneScript.Text.Lines

namespace SceneScript.Text

/-- The line has `k` blanks in front of its first other character. -/
inductive Indented (k : Nat) : List Char → Prop
  | intro {blanks rest : List Char} {c : Char} : blanks.length = k → (∀ d ∈ blanks, isBlank d) →
      isBlank c = false → Indented k (blanks ++ c :: rest)

theorem indentation?_eq_some_iff {line : List Char} {k : Nat} :
    indentation? line = some k ↔ Indented k line := by
  constructor
  · intro h
    obtain ⟨hk, hc, hblanks⟩ := List.findIdx?_eq_some_iff_getElem.mp h
    have hline := List.take_append_drop k line
    rw [List.drop_eq_getElem_cons hk] at hline
    rw [← hline]
    refine .intro (List.length_take_of_le (Nat.le_of_lt hk)) (fun d hd => ?_) (by simpa using hc)
    obtain ⟨j, hj, rfl⟩ := List.mem_take_iff_getElem.mp hd
    simpa using hblanks j (by omega)
  · rintro ⟨rfl, hblanks, hc⟩
    have hnone : ∀ {s : List Char}, (∀ d ∈ s, isBlank d) → s.findIdx? (!isBlank ·) = none := by
      intro s hs
      exact List.findIdx?_eq_none_iff.mpr fun d hd => by simp [hs d hd]
    rw [indentation?, List.findIdx?_append, hnone hblanks, List.findIdx?_cons, hc]
    simp

theorem indentation?_append {c : Char} (hc : isBlank c = false) (n : Nat) (s : List Char) :
    indentation? (List.replicate n ' ' ++ c :: s) = some n := by
  have hs : isBlank ' ' = true := by decide
  refine indentation?_eq_some_iff.mpr (.intro List.length_replicate (fun d hd => ?_) hc)
  rwa [List.eq_of_mem_replicate hd]

theorem endLine_of_lines {text opening closing : List Char} {above below : List (List Char)}
    (middle : List (List Char)) {indent : Nat}
    (h : lines text = above ++ opening :: (middle ++ closing :: below))
    (ho : indentation? opening = some indent) (hm : ∀ l ∈ middle, closes indent l = false)
    (hc : closes indent closing) :
    endLine text (above.length + 1) = above.length + middle.length + 2 := by
  have hopening : (lines text)[above.length]? = some opening := by simp [h]
  have hdrop : (lines text).drop (above.length + 1) = middle ++ closing :: below := by
    rw [h, List.drop_append]
    simp
  have hmiddle : middle.findIdx? (closes indent) = none := List.findIdx?_eq_none_iff.mpr hm
  have hfind : (middle ++ closing :: below).findIdx? (closes indent) = some middle.length := by
    rw [List.findIdx?_append, hmiddle, List.findIdx?_cons, hc]
    simp
  simp only [endLine, Nat.add_one_ne_zero, if_false, Nat.add_sub_cancel, hopening, hdrop, ho,
    Option.bind_eq_bind, Option.bind_some, hfind]
  omega

theorem endLine_cases (text : List Char) (start : Nat) :
    endLine text start = (lines text).length ∨
      start < endLine text start ∧ endLine text start ≤ (lines text).length := by
  simp only [endLine]
  split
  · rename_i i hclosing
    simp only [Option.bind_eq_bind, Option.bind_eq_some_iff] at hclosing
    obtain ⟨-, -, indent, -, hfind⟩ := hclosing
    obtain ⟨hi, -⟩ := List.findIdx?_eq_some_iff_getElem.mp hfind
    rw [List.length_drop] at hi
    exact .inr ⟨by omega, by omega⟩
  · exact .inl rfl

theorem endLine_le (text : List Char) (start : Nat) : endLine text start ≤ (lines text).length := by
  rcases endLine_cases text start with h | ⟨-, h⟩
  · exact Nat.le_of_eq h
  · exact h

theorem one_le_endLine (text : List Char) (start : Nat) : 1 ≤ endLine text start := by
  have hlines : 0 < (lines text).length := List.length_pos_iff.mpr (List.splitOn_ne_nil _ _)
  rcases endLine_cases text start with h | ⟨h, -⟩
  · omega
  · omega

theorem le_endLine_iff {text : List Char} {start : Nat} :
    start ≤ endLine text start ↔ start ≤ (lines text).length := by
  have hle := endLine_le text start
  constructor
  · intro h
    exact Nat.le_trans h hle
  · intro h
    rcases endLine_cases text start with hend | ⟨hlt, -⟩
    · rwa [hend]
    · exact Nat.le_of_lt hlt

end SceneScript.Text
