import Mathlib.Order.Bounds.Basic
import SceneScript.Proofs.Text.Block

namespace SceneScript.Text

def Opens (text : List Char) (start k : Nat) : Prop :=
  1 ≤ start ∧ ∃ line, (lines text)[start - 1]? = some line ∧ Indented k line

def closers (text : List Char) (start k : Nat) : Set Nat :=
  {stop | start < stop ∧ ∃ line, (lines text)[stop - 1]? = some line ∧ '\x7d' ∈ line ∧
    ∃ j ≤ k, Indented j line}

theorem closes_iff {line : List Char} {k : Nat} :
    closes k line ↔ '\x7d' ∈ line ∧ ∃ j ≤ k, Indented j line := by
  simp only [closes, Bool.and_eq_true, List.contains_iff_mem, Option.any_eq_true,
    indentation?_eq_some_iff, decide_eq_true_eq]
  constructor
  · rintro ⟨hbrace, j, hj, hle⟩
    exact ⟨hbrace, j, hle, hj⟩
  · rintro ⟨hbrace, j, hle, hj⟩
    exact ⟨hbrace, j, hj, hle⟩

section

variable {text : List Char} {start k : Nat}

theorem mem_closers_iff {stop : Nat} : stop ∈ closers text start k ↔
    ∃ i, stop = start + i + 1 ∧
      ∃ line, ((lines text).drop start)[i]? = some line ∧ closes k line := by
  constructor
  · rintro ⟨hlt, line, hline, hcloses⟩
    refine ⟨stop - start - 1, by omega, line, ?_, closes_iff.mpr hcloses⟩
    rwa [List.getElem?_drop, show start + (stop - start - 1) = stop - 1 by omega]
  · rintro ⟨i, rfl, line, hline, hcloses⟩
    rw [List.getElem?_drop] at hline
    exact ⟨by omega, line, hline, closes_iff.mp hcloses⟩

theorem closers_isLeast {i : Nat} (h : ((lines text).drop start).findIdx? (closes k) = some i) :
    IsLeast (closers text start k) (start + i + 1) := by
  obtain ⟨hi, hcloses, hbefore⟩ := List.findIdx?_eq_some_iff_getElem.mp h
  refine ⟨mem_closers_iff.mpr ⟨i, rfl, _, List.getElem?_eq_getElem hi, hcloses⟩, ?_⟩
  intro stop hstop
  obtain ⟨j, rfl, line, hline, hj⟩ := mem_closers_iff.mp hstop
  have hle : i ≤ j := by
    apply Nat.le_of_not_lt
    intro hlt
    obtain ⟨_, rfl⟩ := List.getElem?_eq_some_iff.mp hline
    exact hbefore j hlt hj
  omega

theorem closers_eq_empty (h : ((lines text).drop start).findIdx? (closes k) = none) :
    closers text start k = ∅ := by
  rw [Set.eq_empty_iff_forall_notMem]
  intro stop hstop
  obtain ⟨i, -, line, hline, hcloses⟩ := mem_closers_iff.mp hstop
  have hnot := List.findIdx?_eq_none_iff.mp h line (List.mem_of_getElem? hline)
  simp [hcloses] at hnot

theorem endLine_of_opens (h : Opens text start k) :
    endLine text start =
      (((lines text).drop start).findIdx? (closes k)).elim (lines text).length (start + · + 1) := by
  obtain ⟨hone, line, hline, hk⟩ := h
  have hzero : start ≠ 0 := by omega
  simp only [endLine, if_neg hzero, hline, indentation?_eq_some_iff.mpr hk, Option.bind_eq_bind,
    Option.bind_some]
  cases ((lines text).drop start).findIdx? (closes k) with
  | none => rfl
  | some i => rfl

theorem Opens.endLine_closes (h : Opens text start k) :
    IsLeast (closers text start k) (endLine text start) ∨
      closers text start k = ∅ ∧ endLine text start = (lines text).length := by
  rw [endLine_of_opens h]
  cases hfind : ((lines text).drop start).findIdx? (closes k) with
  | some i => exact .inl (closers_isLeast hfind)
  | none => exact .inr ⟨closers_eq_empty hfind, rfl⟩

theorem endLine_of_not_opens (h : ∀ k, ¬Opens text start k) :
    endLine text start = (lines text).length := by
  simp only [endLine]
  split
  · rename_i i hclosing
    simp only [Option.bind_eq_bind, Option.bind_eq_some_iff] at hclosing
    obtain ⟨line, hopening, k, hk, -⟩ := hclosing
    split at hopening
    · simp at hopening
    · rename_i hzero
      exact absurd ⟨by omega, line, hopening, indentation?_eq_some_iff.mp hk⟩ (h k)
  · rfl

theorem Opens.le_endLine (h : Opens text start k) : start ≤ endLine text start := by
  obtain ⟨hone, line, hline, -⟩ := h
  have hlt := (List.getElem?_eq_some_iff.mp hline).1
  exact le_endLine_iff.mpr (by omega)

theorem closers_inner {inner j stop : Nat} (h : stop ∈ closers text start k) (hlt : inner < stop)
    (hk : k ≤ j) : stop ∈ closers text inner j := by
  obtain ⟨-, line, hline, hbrace, i, hi, hindent⟩ := h
  exact ⟨hlt, line, hline, hbrace, i, Nat.le_trans hi hk, hindent⟩

theorem Opens.endLine_le_of_inner {inner j : Nat} (h : Opens text start k) (hj : Opens text inner j)
    (hlt : inner < endLine text start) (hk : k ≤ j) : endLine text inner ≤ endLine text start := by
  obtain hstop | ⟨-, hlast⟩ := h.endLine_closes
  · have hmem := closers_inner hstop.1 hlt hk
    obtain hinner | ⟨hempty, -⟩ := hj.endLine_closes
    · exact hinner.2 hmem
    · simp [hempty] at hmem
  · rw [hlast]
    exact endLine_le text inner

end

/-- A block ends on a line of the text: on the first one behind its opening line that has a closing
brace and is indented no deeper, or on the last one where there is none. The blocks that are opened
in it, at its indentation or deeper, end in it. -/
theorem endLine_extent (text : List Char) (start : Nat) :
    (1 ≤ endLine text start ∧ endLine text start ≤ (lines text).length) ∧
      ((∀ k, ¬Opens text start k) → endLine text start = (lines text).length) ∧
      ∀ k, Opens text start k →
        (IsLeast (closers text start k) (endLine text start) ∨
          closers text start k = ∅ ∧ endLine text start = (lines text).length) ∧
        start ≤ endLine text start ∧
        ∀ inner j, start < inner → inner < endLine text start → Opens text inner j → k ≤ j →
          endLine text inner ≤ endLine text start :=
  ⟨⟨one_le_endLine text start, endLine_le text start⟩, endLine_of_not_opens, fun _ h =>
    ⟨h.endLine_closes, h.le_endLine, fun _ _ _ hlt hj hk => h.endLine_le_of_inner hj hlt hk⟩⟩

def nestedBlocks : List Char :=
  " \x7b\n\n\u3000\u00a0\x7b\n  a\x7d,\n\t\x7d\n\x7d".toList

theorem endLine_extent_nestedBlocks :
    Opens nestedBlocks 1 1 ∧ Opens nestedBlocks 3 2 ∧
      IsLeast (closers nestedBlocks 1 1) 5 ∧ IsLeast (closers nestedBlocks 3 2) 4 ∧
      endLine nestedBlocks 3 ≤ endLine nestedBlocks 1 ∧
      endLine nestedBlocks 2 = (lines nestedBlocks).length := by
  have houter : Opens nestedBlocks 1 1 :=
    ⟨by decide, _, rfl, indentation?_eq_some_iff.mp (by decide)⟩
  have hinner : Opens nestedBlocks 3 2 :=
    ⟨by decide, _, rfl, indentation?_eq_some_iff.mp (by decide)⟩
  have hblank : ∀ k, ¬Opens nestedBlocks 2 k := by
    rintro k ⟨-, line, hline, hk⟩
    obtain rfl : [] = line := Option.some.inj hline
    simp [← indentation?_eq_some_iff, indentation?] at hk
  have hlength : (lines nestedBlocks).length = 6 := by decide
  have hfive : endLine nestedBlocks 1 = 5 := by decide
  have hfour : endLine nestedBlocks 3 = 4 := by decide
  obtain ⟨hstop, -, hnested⟩ := (endLine_extent nestedBlocks 1).2.2 1 houter
  obtain ⟨hstop', -, -⟩ := (endLine_extent nestedBlocks 3).2.2 2 hinner
  have hle := hnested 3 2 (by decide) (by rw [hfive]; decide) hinner (by decide)
  rw [hfive, hlength] at hstop
  rw [hfour, hlength] at hstop'
  refine ⟨houter, hinner, hstop.resolve_right ?_, hstop'.resolve_right ?_, hle, ?_⟩
  · exact fun h => absurd h.2 (by decide)
  · exact fun h => absurd h.2 (by decide)
  · exact (endLine_extent nestedBlocks 2).2.1 hblank

end SceneScript.Text
