import Mathlib.Algebra.Ring.Nat
import SceneScript.Proofs.Json.Layout

namespace SceneScript.Json

open Text

def height (v : Json) : Nat :=
  v.prettyLines.length

mutual

theorem length_linesAt (depth depth' : Nat) (before after before' after' : List Char) :
    ∀ v : Json, (linesAt depth before after v).length = (linesAt depth' before' after' v).length
  | array (item :: items) => by
      simp [linesAt, length_itemLines (depth + 1) (depth' + 1) (item :: items)]
  | object (member :: members) => by
      simp [linesAt, length_memberLines (depth + 1) (depth' + 1) (member :: members)]
  | array [] | object [] | null | bool _ | number _ | string _ => by simp [linesAt]

theorem length_itemLines (depth depth' : Nat) : ∀ items : List Json,
    (itemLines depth items).length = (itemLines depth' items).length
  | [] => rfl
  | item :: items => by
      simp only [itemLines, List.length_append, length_itemLines depth depth' items,
        length_linesAt depth depth' [] (separator items) [] (separator items) item]

theorem length_memberLines (depth depth' : Nat) : ∀ members : List (String × Json),
    (memberLines depth members).length = (memberLines depth' members).length
  | [] => rfl
  | (key, value) :: members => by
      simp only [memberLines, List.length_append, length_memberLines depth depth' members,
        length_linesAt depth depth' (label key) (separator members) (label key)
          (separator members) value]

end

@[simp]
theorem linesAt_length (depth : Nat) (before after : List Char) (v : Json) :
    (linesAt depth before after v).length = height v :=
  length_linesAt depth 0 before after [] [] v

def itemsBefore (depth : Nat) (items : List Json) : List Line :=
  items.flatMap fun item => linesAt depth [] [','] item

def membersBefore (depth : Nat) (members : List (String × Json)) : List Line :=
  members.flatMap fun m => linesAt depth (label m.1) [','] m.2

theorem itemLines_append (depth : Nat) (front : List Json) (item : Json) (back : List Json) :
    itemLines depth (front ++ item :: back) =
      itemsBefore depth front ++ linesAt depth [] (separator back) item
        ++ itemLines depth back := by
  induction front with
  | nil => rfl
  | cons first front ih =>
    have hs : separator (front ++ item :: back) = [','] := by cases front <;> rfl
    rw [List.cons_append, itemLines, ih, hs]
    simp [itemsBefore]

theorem memberLines_append (depth : Nat) (front : List (String × Json)) (key : String)
    (value : Json) (back : List (String × Json)) :
    memberLines depth (front ++ (key, value) :: back) =
      membersBefore depth front ++ linesAt depth (label key) (separator back) value
        ++ memberLines depth back := by
  induction front with
  | nil => rfl
  | cons first front ih =>
    have hs : separator (front ++ (key, value) :: back) = [','] := by cases front <;> rfl
    rw [List.cons_append, memberLines, ih, hs]
    simp [membersBefore]

theorem length_itemsBefore (depth : Nat) (items : List Json) :
    (itemsBefore depth items).length = (items.map height).sum := by
  simp [itemsBefore, List.length_flatMap]

theorem length_membersBefore (depth : Nat) (members : List (String × Json)) :
    (membersBefore depth members).length = (members.map fun m => height m.2).sum := by
  simp [membersBefore, List.length_flatMap]

theorem linesAt_array_append (depth : Nat) (before after : List Char) (front : List Json)
    (item : Json) (back : List Json) :
    linesAt depth before after (array (front ++ item :: back)) =
      (⟨depth, before ++ ['[']⟩ :: itemsBefore (depth + 1) front)
        ++ linesAt (depth + 1) [] (separator back) item
        ++ (itemLines (depth + 1) back ++ [⟨depth, ']' :: after⟩]) := by
  have h := itemLines_append (depth + 1) front item back
  cases front with
  | nil =>
    rw [List.nil_append] at h ⊢
    rw [linesAt, h]
    simp
  | cons first front =>
    rw [List.cons_append] at h ⊢
    rw [linesAt, h]
    simp

theorem linesAt_object_append (depth : Nat) (before after : List Char)
    (front : List (String × Json)) (key : String) (value : Json) (back : List (String × Json)) :
    linesAt depth before after (object (front ++ (key, value) :: back)) =
      (⟨depth, before ++ ['\x7b']⟩ :: membersBefore (depth + 1) front)
        ++ linesAt (depth + 1) (label key) (separator back) value
        ++ (memberLines (depth + 1) back ++ [⟨depth, '\x7d' :: after⟩]) := by
  have h := memberLines_append (depth + 1) front key value back
  cases front with
  | nil =>
    rw [List.nil_append] at h ⊢
    rw [linesAt, h]
    simp
  | cons first front =>
    rw [List.cons_append] at h ⊢
    rw [linesAt, h]
    simp

def parts : Json → List Json
  | array items => items
  | object members => members.map Prod.snd
  | _ => []

/-- The part at a place, with the number of lines between its first one and that of the whole. -/
def place? : List Nat → Json → Option (Nat × Json)
  | [], v => some (0, v)
  | i :: path, v =>
      v.parts[i]?.bind fun part =>
        (place? path part).map fun p => (1 + ((v.parts.take i).map height).sum + p.1, p.2)

def span? (path : List Nat) (v : Json) : Option (Nat × Nat) :=
  (place? path v).map fun p => (p.1 + 1, p.1 + height p.2)

def Joined (before after : List Char) : Prop :=
  (before = [] ∨ ∃ key, before = label key) ∧ (after = [] ∨ after = [','])

theorem joined_nil : Joined [] [] :=
  ⟨.inl rfl, .inl rfl⟩

theorem joined_item {α : Type} (back : List α) : Joined [] (separator back) :=
  ⟨.inl rfl, separator_cases back⟩

theorem joined_member {α : Type} (key : String) (back : List α) :
    Joined (label key) (separator back) :=
  ⟨.inr ⟨key, rfl⟩, separator_cases back⟩

theorem eq_append_of_getElem? {α : Type} {xs : List α} {i : Nat} {x : α} (h : xs[i]? = some x) :
    xs = xs.take i ++ x :: xs.drop (i + 1) := by
  obtain ⟨hi, rfl⟩ := List.getElem?_eq_some_iff.mp h
  rw [List.getElem_cons_drop, List.take_append_drop]

theorem linesAt_part (depth : Nat) (before after : List Char) {v part : Json} {i : Nat}
    (h : v.parts[i]? = some part) : ∃ above front back below,
      linesAt depth before after v = above ++ linesAt (depth + 1) front back part ++ below ∧
      above.length = 1 + ((v.parts.take i).map height).sum ∧ Joined front back := by
  cases v with
  | array items =>
    have hs := eq_append_of_getElem? h
    have hlines := linesAt_array_append depth before after (items.take i) part (items.drop (i + 1))
    simp only [parts] at hs
    rw [← hs] at hlines
    refine ⟨_, _, _, _, hlines, ?_, joined_item _⟩
    rw [List.length_cons, length_itemsBefore, Nat.add_comm, parts]
  | object members =>
    simp only [parts, List.getElem?_map, Option.map_eq_some_iff] at h
    obtain ⟨⟨key, part⟩, hm, rfl⟩ := h
    have hs := eq_append_of_getElem? hm
    have hlines := linesAt_object_append depth before after (members.take i) key part
      (members.drop (i + 1))
    rw [← hs] at hlines
    refine ⟨_, _, _, _, hlines, ?_, joined_member key _⟩
    rw [List.length_cons, length_membersBefore, Nat.add_comm, parts, ← List.map_take, List.map_map]
    rfl
  | _ => simp [parts] at h

theorem linesAt_place {path : List Nat} (depth : Nat) {before after : List Char} {v part : Json}
    {k : Nat} (hj : Joined before after) (h : place? path v = some (k, part)) :
    ∃ above front back below,
      linesAt depth before after v =
        above ++ linesAt (depth + path.length) front back part ++ below ∧
      above.length = k ∧ Joined front back := by
  induction path generalizing depth before after v k with
  | nil =>
    simp only [place?, Option.some.injEq, Prod.mk.injEq] at h
    obtain ⟨rfl, rfl⟩ := h
    exact ⟨[], before, after, [], by simp, rfl, hj⟩
  | cons i path ih =>
    simp only [place?, Option.bind_eq_some_iff, Option.map_eq_some_iff] at h
    obtain ⟨child, hchild, ⟨k', part'⟩, hplace, heq⟩ := h
    obtain ⟨rfl, rfl⟩ := Prod.mk.inj heq
    obtain ⟨above, front, back, below, hlines, hlength, hjoined⟩ :=
      linesAt_part depth before after hchild
    obtain ⟨above', front', back', below', hlines', hlength', hjoined'⟩ :=
      ih (depth + 1) hjoined hplace
    refine ⟨above ++ above', front', back', below' ++ below, ?_, ?_, hjoined'⟩
    · rw [hlines, hlines', List.length_cons, Nat.add_assoc, Nat.add_comm 1]
      simp only [List.append_assoc]
    · rw [List.length_append, hlength, hlength']

theorem lines_place {path : List Nat} {v part : Json} {k : Nat}
    (h : place? path v = some (k, part)) :
    ∃ front back, Joined front back ∧ ((lines v.pretty).drop k).take (height part) =
      (linesAt path.length front back part).map Line.text := by
  obtain ⟨above, front, back, below, hlines, hlength, hj⟩ := linesAt_place 0 joined_nil h
  refine ⟨front, back, hj, ?_⟩
  have habove : (above.map Line.text).length = k := by rw [List.length_map, hlength]
  have hpart : ((linesAt path.length front back part).map Line.text).length = height part := by
    rw [List.length_map, linesAt_length]
  rw [lines_pretty, prettyLines, hlines, Nat.zero_add, List.append_assoc, List.map_append,
    List.map_append, List.drop_left' habove, List.take_left' hpart]

theorem getElem?_of_drop_take {α : Type} {xs ys : List α} {k n i : Nat}
    (h : (xs.drop k).take n = ys) (hi : i < n) : xs[k + i]? = ys[i]? := by
  rw [← h, List.getElem?_take_of_lt hi, List.getElem?_drop]

theorem lines_span?_object {path : List Nat} {v : Json} {member : String × Json}
    {members : List (String × Json)} {k : Nat}
    (h : place? path v = some (k, object (member :: members))) :
    ∃ first last front back, span? path v = some (first, last) ∧ Joined front back ∧
      ((lines v.pretty).drop (first - 1)).take (last - (first - 1)) =
        (linesAt path.length front back (object (member :: members))).map Line.text ∧
      (lines v.pretty)[first - 1]? = some (indent path.length ++ front ++ ['\x7b']) ∧
      (lines v.pretty)[last - 1]? = some (indent path.length ++ '\x7d' :: back) := by
  obtain ⟨front, back, hj, hlines⟩ := lines_place h
  have hheight : height (object (member :: members)) =
      (memberLines 1 (member :: members)).length + 2 := by
    simp [height, prettyLines, linesAt]
  have hmembers := length_memberLines (path.length + 1) 1 (member :: members)
  have hat := fun i hi => getElem?_of_drop_take (i := i) hlines hi
  have hspan : span? path v = some (k + 1, k + height (object (member :: members))) := by
    rw [span?, h]
    rfl
  refine ⟨_, _, front, back, hspan, hj, ?_, ?_, ?_⟩
  · rw [Nat.add_sub_cancel, Nat.add_sub_cancel_left]
    exact hlines
  · have hfirst := hat 0 (by omega)
    rw [linesAt] at hfirst
    simpa [Line.text_eq] using hfirst
  · have hlast := hat (height (object (member :: members)) - 1) (by omega)
    have hk : k + (height (object (member :: members)) - 1) =
        k + height (object (member :: members)) - 1 := by omega
    rw [hk, linesAt] at hlast
    rw [hlast, hheight, ← hmembers]
    simp [Line.text_eq]

section Member

def linesBefore (front : List (String × Json)) : List Line :=
  ⟨0, ['\x7b']⟩ :: membersBefore 1 front

def textBefore (front : List (String × Json)) : List Char :=
  joinLines ((linesBefore front).map Line.text) ++ '\n' :: indent 1

variable (front : List (String × Json)) (key : String) (value : Json)
  (back : List (String × Json))

theorem prettyLines_member :
    prettyLines (object (front ++ (key, value) :: back)) =
      linesBefore front ++ linesAt 1 (label key) (separator back) value
        ++ (memberLines 1 back ++ [⟨0, ['\x7d']⟩]) :=
  linesAt_object_append 0 [] [] front key value back

theorem newline_not_mem_linesBefore : ∀ l ∈ (linesBefore front).map Line.text, '\n' ∉ l := by
  intro l hl
  obtain ⟨line, hline, rfl⟩ := List.mem_map.mp hl
  rcases List.mem_cons.mp hline with rfl | hline
  · decide
  · obtain ⟨m, -, hm⟩ := List.mem_flatMap.mp hline
    exact (formed_linesAt 1 (label m.1) [','] m.2 line hm).newline_not_mem
      (newline_not_mem_label m.1) (by decide)

theorem count_textBefore : (textBefore front).count '\n' = (linesBefore front).length := by
  have h := count_joinLines (newline_not_mem_linesBefore front) (by simp [linesBefore])
  have hi : (indent 1).count '\n' = 0 := by decide
  rw [textBefore, List.count_append, List.count_cons_self, hi, Nat.zero_add, h, List.length_map]

end Member

end SceneScript.Json
