import Mathlib.Algebra.Ring.Nat
import SceneScript.Text.Lines

namespace SceneScript.Text

def bytes (s : List Char) : List UInt8 :=
  s.flatMap String.utf8EncodeChar

theorem bytes_cons (c : Char) (s : List Char) :
    bytes (c :: s) = String.utf8EncodeChar c ++ bytes s := by
  rw [bytes, List.flatMap_cons, bytes]

theorem bytes_append (s t : List Char) : bytes (s ++ t) = bytes s ++ bytes t := by
  rw [bytes, List.flatMap_append, bytes, bytes]

theorem length_bytes (s : List Char) : (bytes s).length = byteLength s := by
  induction s with
  | nil => rfl
  | cons c s ih => rw [bytes_cons, List.length_append, String.length_utf8EncodeChar, ih, byteLength]

theorem byteLength_append (s t : List Char) :
    byteLength (s ++ t) = byteLength s + byteLength t := by
  rw [← length_bytes, bytes_append, List.length_append, length_bytes, length_bytes]

theorem byteLength_take_mono (s : List Char) {j k : Nat} (h : j ≤ k) :
    byteLength (s.take j) ≤ byteLength (s.take k) := by
  obtain ⟨d, rfl⟩ := Nat.exists_eq_add_of_le h
  rw [List.take_add, byteLength_append]
  exact Nat.le_add_right _ _

theorem take_bytes_append (s t : List Char) : (bytes (s ++ t)).take (byteLength s) = bytes s := by
  rw [bytes_append, ← length_bytes, List.take_left]

theorem drop_bytes_append (s t : List Char) : (bytes (s ++ t)).drop (byteLength s) = bytes t := by
  rw [bytes_append, ← length_bytes, List.drop_left]

theorem utf8ByteSize_ofList (s : List Char) : (String.ofList s).utf8ByteSize = byteLength s := by
  induction s with
  | nil => rfl
  | cons c s ih =>
    rw [← List.singleton_append, String.ofList_append, String.utf8ByteSize_append, ih,
      ← String.singleton_eq_ofList, String.utf8ByteSize_singleton]
    rfl

theorem bytes_cut (front : List Char) (c : Char) (back : List Char) :
    (bytes (front ++ c :: back)).take (byteLength front) = bytes front ∧
      (bytes (front ++ c :: back)).drop (byteLength front + c.utf8Size) = bytes back := by
  have hlength : byteLength (front ++ [c]) = byteLength front + c.utf8Size :=
    byteLength_append _ _
  constructor
  · rw [take_bytes_append]
  · rw [← hlength, List.append_cons front c back, drop_bytes_append]

theorem isValid_byteLength (s t : List Char) :
    (String.Pos.Raw.mk (byteLength s)).IsValid (String.ofList (s ++ t)) := by
  rw [String.Pos.Raw.isValid_ofList]
  exact ⟨s.length, by rw [List.take_left, utf8ByteSize_ofList]⟩

theorem toNat_of_mem_utf8EncodeChar {c : Char} {b : UInt8} (h : b ∈ String.utf8EncodeChar c) :
    b.toNat = c.toNat ∨ 128 ≤ b.toNat := by
  revert h
  fun_cases String.utf8EncodeChar c with
  | case1 v hv =>
    intro h
    obtain rfl := List.mem_singleton.mp h
    rw [UInt8.toNat_ofNat']
    exact .inl (Nat.mod_eq_of_lt (by omega))
  | _ =>
    intro h
    simp only [List.mem_cons, List.not_mem_nil, or_false] at h
    right
    rcases h with rfl | rfl | rfl | rfl <;> rw [UInt8.toNat_ofNat'] <;> omega

theorem newline_not_mem_utf8EncodeChar {c : Char} (h : c ≠ '\n') :
    '\n'.toUInt8 ∉ String.utf8EncodeChar c := by
  intro hm
  rcases toNat_of_mem_utf8EncodeChar hm with hc | hc
  · exact h (Char.toNat_inj.mp hc.symm)
  · exact absurd hc (by decide)

theorem count_utf8EncodeChar {c : Char} (h : c ≠ '\n') (n : Nat) :
    ((String.utf8EncodeChar c).take n).count '\n'.toUInt8 = 0 :=
  List.count_eq_zero.mpr fun hm => newline_not_mem_utf8EncodeChar h (List.mem_of_mem_take hm)

theorem lineIndexAt_zero (s : List Char) : lineIndexAt s 0 = 0 := by
  cases s <;> rfl

theorem lineIndexAt_newline (s : List Char) (offset : Nat) :
    lineIndexAt ('\n' :: s) (offset + 1) = lineIndexAt s offset + 1 :=
  Nat.add_comm 1 _

theorem lineIndexAt_cons {c : Char} (h : c ≠ '\n') (s : List Char) (offset : Nat) :
    lineIndexAt (c :: s) offset = lineIndexAt s (offset - c.utf8Size) := by
  rw [lineIndexAt, if_neg h, Nat.zero_add]
  split
  · rename_i ho
    rw [ho, Nat.zero_sub, lineIndexAt_zero]
  · rfl

theorem lineIndexAt_eq_count (s : List Char) (offset : Nat) :
    lineIndexAt s offset = ((bytes s).take offset).count '\n'.toUInt8 := by
  induction s generalizing offset with
  | nil => simp [lineIndexAt, bytes]
  | cons c s ih =>
    by_cases hc : c = '\n'
    · subst hc
      cases offset with
      | zero => rw [lineIndexAt_zero, List.take_zero, List.count_nil]
      | succ offset =>
        have hbyte : String.utf8EncodeChar '\n' = ['\n'.toUInt8] := rfl
        rw [lineIndexAt_newline, bytes_cons, hbyte, List.singleton_append, List.take_succ_cons,
          List.count_cons_self, ih]
    · rw [lineIndexAt_cons hc, bytes_cons, List.take_append, List.count_append,
        count_utf8EncodeChar hc, String.length_utf8EncodeChar, ih, Nat.zero_add]

def lineStart (s : List Char) (i : Nat) : Nat :=
  (((lines s).take i).map fun line => byteLength line + 1).sum

def InLine (s : List Char) (offset i : Nat) : Prop :=
  ∃ line, (lines s)[i]? = some line ∧
    lineStart s i ≤ offset ∧ offset ≤ lineStart s i + byteLength line

theorem exists_lines (s : List Char) : ∃ first rest, lines s = first :: rest :=
  List.exists_cons_of_ne_nil (List.splitOn_ne_nil '\n' s)

theorem lines_newline (s : List Char) : lines ('\n' :: s) = [] :: lines s :=
  List.splitOn_append_cons_self [] s

theorem lines_cons {c : Char} (h : c ≠ '\n') (s : List Char) :
    lines (c :: s) = (lines s).modifyHead (c :: ·) := by
  rw [lines, List.splitOn_cons_eq_if_modifyHead, if_neg (by simpa using h), lines]

theorem lineStart_newline (s : List Char) (i : Nat) :
    lineStart ('\n' :: s) (i + 1) = lineStart s i + 1 := by
  rw [lineStart, lines_newline, List.take_succ_cons, List.map_cons, List.sum_cons, byteLength,
    lineStart]
  omega

theorem lineStart_cons {c : Char} (h : c ≠ '\n') (s : List Char) (i : Nat) :
    lineStart (c :: s) (i + 1) = lineStart s (i + 1) + c.utf8Size := by
  obtain ⟨first, rest, hlines⟩ := exists_lines s
  simp only [lineStart, lines_cons h, hlines, List.modifyHead_cons, List.take_succ_cons,
    List.map_cons, List.sum_cons, byteLength]
  omega

theorem lineStart_succ {s line : List Char} {i : Nat} (h : (lines s)[i]? = some line) :
    lineStart s (i + 1) = lineStart s i + (byteLength line + 1) := by
  rw [lineStart, List.take_add_one, h, List.map_append, List.sum_append, lineStart]
  simp

theorem lineStart_mono (s : List Char) {i j : Nat} (h : i ≤ j) : lineStart s i ≤ lineStart s j := by
  obtain ⟨d, rfl⟩ := Nat.exists_eq_add_of_le h
  rw [lineStart, lineStart, List.take_add, List.map_append, List.sum_append]
  exact Nat.le_add_right _ _

theorem InLine.le {s : List Char} {offset i j : Nat} (hi : InLine s offset i)
    (hj : InLine s offset j) : i ≤ j := by
  obtain ⟨-, -, hstart, -⟩ := hi
  obtain ⟨line, hline, -, hend⟩ := hj
  apply Nat.le_of_not_lt
  intro hlt
  -- line `i` starts behind the newline that ends line `j`
  have hsucc := lineStart_succ hline
  have hmono := lineStart_mono s (show j + 1 ≤ i from hlt)
  omega

theorem InLine.unique {s : List Char} {offset i j : Nat} (hi : InLine s offset i)
    (hj : InLine s offset j) : i = j :=
  Nat.le_antisymm (hi.le hj) (hj.le hi)

theorem inLine_zero (s : List Char) : InLine s 0 0 := by
  obtain ⟨first, rest, hlines⟩ := exists_lines s
  exact ⟨first, by rw [hlines, List.getElem?_cons_zero], Nat.le_refl _, Nat.zero_le _⟩

theorem InLine.newline {s : List Char} {offset i : Nat} (h : InLine s offset i) :
    InLine ('\n' :: s) (offset + 1) (i + 1) := by
  obtain ⟨line, hline, hstart, hend⟩ := h
  refine ⟨line, by rw [lines_newline, List.getElem?_cons_succ, hline], ?_⟩
  rw [lineStart_newline]
  omega

theorem InLine.cons {c : Char} (hc : c ≠ '\n') {s : List Char} {offset i : Nat}
    (h : InLine s (offset - c.utf8Size) i) (hi : i = 0 ∨ c.utf8Size ≤ offset) :
    InLine (c :: s) offset i := by
  obtain ⟨line, hline, hstart, hend⟩ := h
  -- the character is in the first line, and moves the others
  cases i with
  | zero =>
    refine ⟨c :: line, ?_, Nat.zero_le _, ?_⟩
    · rw [lines_cons hc, List.getElem?_modifyHead_zero, hline]
      rfl
    · show offset ≤ 0 + (c.utf8Size + byteLength line)
      have hzero : lineStart s 0 = 0 := rfl
      omega
  | succ i =>
    refine ⟨line, ?_, ?_⟩
    · rw [lines_cons hc, List.getElem?_modifyHead_succ, hline]
    · rw [lineStart_cons hc]
      omega

theorem inLine_lineIndexAt (s : List Char) (offset : Nat) :
    InLine s (min offset (byteLength s)) (lineIndexAt s offset) := by
  induction s generalizing offset with
  | nil => simpa [lineIndexAt, byteLength] using inLine_zero []
  | cons c s ih =>
    by_cases hc : c = '\n'
    · subst hc
      cases offset with
      | zero => simpa [lineIndexAt_zero] using inLine_zero ('\n' :: s)
      | succ offset =>
        have hmin : min (offset + 1) (byteLength ('\n' :: s)) =
            min offset (byteLength s) + 1 := by
          show min (offset + 1) (1 + byteLength s) = _
          omega
        rw [hmin, lineIndexAt_newline]
        exact (ih offset).newline
    · have hmin : min offset (byteLength (c :: s)) - c.utf8Size =
          min (offset - c.utf8Size) (byteLength s) := by
        rw [byteLength]
        omega
      have hline := ih (offset - c.utf8Size)
      rw [← hmin] at hline
      rw [lineIndexAt_cons hc]
      refine hline.cons hc ?_
      -- an offset inside of the first character is in the first line
      rcases Nat.lt_or_ge offset c.utf8Size with hlt | hge
      · rw [Nat.sub_eq_zero_of_le (Nat.le_of_lt hlt), lineIndexAt_zero]
        exact .inl rfl
      · right
        rw [byteLength]
        omega

/-- The newline bytes in front of an offset are as many as the lines in front of the one that the
offset is in. -/
theorem lineIndexAt_agrees (s : List Char) (offset : Nat) :
    lineIndexAt s offset = ((bytes s).take offset).count '\n'.toUInt8 ∧
      InLine s (min offset (byteLength s)) (lineIndexAt s offset) ∧
      ∀ i, InLine s (min offset (byteLength s)) i → i = lineIndexAt s offset :=
  ⟨lineIndexAt_eq_count s offset, inLine_lineIndexAt s offset,
    fun _ h => h.unique (inLine_lineIndexAt s offset)⟩

end SceneScript.Text
