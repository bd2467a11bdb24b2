import SceneScript.Proofs.Sorting.Stable

namespace SceneScript.Sorting

variable {α : Type} {less : α → α → Bool} {S : α → Prop} {earlier : α → α → Prop}
  {R : α → α → Prop} {l r : List α}

/-- Two lists that are in order, and for which the comparison decides what order they have among
each other. -/
structure Mergeable (less : α → α → Bool) (S : α → Prop) (R : α → α → Prop) (l r : List α) :
    Prop where
  ordered : Ordered less S
  within : ∀ x ∈ l ++ r, S x
  left : l.Pairwise R
  right : r.Pairwise R
  le {a b : α} : R a b → less b a = false
  stays {x y : α} : x ∈ l → y ∈ r → less y x = false → R x y
  passes {x y : α} : x ∈ l → y ∈ r → less y x = true → R y x

namespace Mergeable

theorem of_stable {xs ys : List α} (hS : Ordered less S) (hl : Stable less S xs l)
    (hr : Stable less S ys r) (he : (xs ++ ys).Pairwise earlier) :
    Mergeable less S (Before less earlier) l r where
  ordered := hS
  within := List.forall_mem_append.mpr ⟨hl.within_right, hr.within_right⟩
  left := hl.before hS (List.pairwise_append.mp he).1
  right := hr.before hS (List.pairwise_append.mp he).2.1
  le h := h.1
  stays hx hy h :=
    ⟨h, .inr ((List.pairwise_append.mp he).2.2 _ (hl.perm.mem_iff.mp hx) _ (hr.perm.mem_iff.mp hy))⟩
  passes hx hy h := .of_less hS (hr.within_right _ hy) (hl.within_right _ hx) h

theorem flip (h : Mergeable less S R l r) :
    Mergeable (fun a b => less b a) S (fun a b => R b a) r.reverse l.reverse where
  ordered := h.ordered.flip
  within x hx := h.within x (by simpa [or_comm] using hx)
  left := List.pairwise_reverse.mpr h.right
  right := List.pairwise_reverse.mpr h.left
  le := h.le
  stays hx hy := h.stays (List.mem_reverse.mp hy) (List.mem_reverse.mp hx)
  passes hx hy := h.passes (List.mem_reverse.mp hy) (List.mem_reverse.mp hx)

variable {x y : α}

theorem tail_left (h : Mergeable less S R (x :: l) r) : Mergeable less S R l r where
  ordered := h.ordered
  within z hz := h.within z (List.mem_cons_of_mem x hz)
  left := h.left.of_cons
  right := h.right
  le := h.le
  stays hx := h.stays (List.mem_cons_of_mem x hx)
  passes hx := h.passes (List.mem_cons_of_mem x hx)

theorem tail_right (h : Mergeable less S R l (y :: r)) : Mergeable less S R l r where
  ordered := h.ordered
  within z hz := h.within z (by
    rw [List.mem_append, List.mem_cons]
    exact (List.mem_append.mp hz).imp_right .inr)
  left := h.left
  right := h.right.of_cons
  le := h.le
  stays hx hy := h.stays hx (List.mem_cons_of_mem y hy)
  passes hx hy := h.passes hx (List.mem_cons_of_mem y hy)

theorem not_less_all (h : Mergeable less S R (x :: l) (y :: r)) (hxy : less y x = false) :
    ∀ z ∈ y :: r, less z x = false := by
  have hSx : S x := h.within x List.mem_cons_self
  have hSr : ∀ z ∈ y :: r, S z := fun z hz => h.within z (List.mem_append_right _ hz)
  intro z hz
  rcases List.mem_cons.mp hz with rfl | hzr
  · exact hxy
  · exact h.ordered.trans hSx (hSr y List.mem_cons_self) (hSr z hz) hxy
      (h.le ((List.pairwise_cons.mp h.right).1 z hzr))

theorem less_all (h : Mergeable less S R (x :: l) (y :: r)) (hyx : less y x = true) :
    ∀ z ∈ x :: l, less y z = true := by
  have hSy : S y := h.within y (List.mem_append_right _ List.mem_cons_self)
  have hSl : ∀ z ∈ x :: l, S z := fun z hz => h.within z (List.mem_append_left _ hz)
  intro z hz
  rcases List.mem_cons.mp hz with rfl | hzl
  · exact hyx
  · exact h.ordered.lt_of_lt_of_le hSy (hSl x List.mem_cons_self) (hSl z hz) hyx
      (h.le ((List.pairwise_cons.mp h.left).1 z hzl))

theorem pairwise_merge (h : Mergeable less S R l r) :
    (l.merge r fun x y => !less y x).Pairwise R := by
  induction l generalizing r with
  | nil => simpa using h.right
  | cons x l ihl =>
    induction r with
    | nil => simpa using h.left
    | cons y r ihr =>
      rw [List.cons_merge_cons]
      cases hyx : less y x with
      | false =>
        refine List.pairwise_cons.mpr ⟨fun z hz => ?_, ihl h.tail_left⟩
        rcases List.mem_append.mp ((List.merge_perm_append _).mem_iff.mp hz) with hz | hz
        · exact (List.pairwise_cons.mp h.left).1 z hz
        · exact h.stays List.mem_cons_self hz (h.not_less_all hyx z hz)
      | true =>
        refine List.pairwise_cons.mpr ⟨fun z hz => ?_, ihr h.tail_right⟩
        rcases List.mem_append.mp ((List.merge_perm_append _).mem_iff.mp hz) with hz | hz
        · exact h.passes hz List.mem_cons_self (h.less_all hyx z hz)
        · exact (List.pairwise_cons.mp h.right).1 z hz

end Mergeable

theorem Stable.merge {xs ys : List α} (hl : Stable less S xs l) (hr : Stable less S ys r) :
    Stable less S (xs ++ ys) (merge less l r) where
  within := List.forall_mem_append.mpr ⟨hl.within, hr.within⟩
  perm := by
    refine List.Perm.trans ?_ (hl.perm.append hr.perm)
    unfold Sorting.merge
    split
    · exact List.merge_perm_append _
    · refine (List.reverse_perm _).trans ((List.merge_perm_append _).trans ?_)
      rw [← List.reverse_append]
      exact List.reverse_perm _
  before hS _ he := by
    have hm := Mergeable.of_stable hS hl hr he
    unfold Sorting.merge
    split
    · exact hm.pairwise_merge
    · exact List.pairwise_reverse.mpr hm.flip.pairwise_merge

/-- The values that a merge has taken from the front of two lists, and what it made of them. -/
inductive Front (less : α → α → Bool) (l' r' : List α) : List α → List α → List α → Prop
  | nil : Front less l' r' [] [] []
  | left {x y : α} {l r r₀ out : List α} : r ++ r' = y :: r₀ → less y x = false →
      Front less l' r' l r out → Front less l' r' (x :: l) r (x :: out)
  | right {x y : α} {l r l₀ out : List α} : l ++ l' = x :: l₀ → less y x = true →
      Front less l' r' l r out → Front less l' r' l (y :: r) (y :: out)

variable (less) in
theorem mergeSteps_front {n : Nat} (hl : n ≤ l.length) (hr : n ≤ r.length) :
    ∃ out l₁ l' r₁ r', mergeSteps less n l r = (out, l', r') ∧ l = l₁ ++ l' ∧ r = r₁ ++ r' ∧
      Front less l' r' l₁ r₁ out ∧ l₁.length + r₁.length = n := by
  induction n generalizing l r with
  | zero =>
    refine ⟨[], [], l, [], r, ?_, rfl, rfl, .nil, rfl⟩
    cases l <;> cases r <;> rfl
  | succ n ih =>
    obtain ⟨x, l, rfl⟩ := List.exists_cons_of_length_pos (show 0 < l.length by omega)
    obtain ⟨y, r, rfl⟩ := List.exists_cons_of_length_pos (show 0 < r.length by omega)
    rw [List.length_cons] at hl hr
    simp only [mergeSteps]
    cases hyx : less y x with
    | true =>
      obtain ⟨out, l₁, l', r₁, r', hsteps, hx, rfl, hfront, hlength⟩ :=
        ih (l := x :: l) (r := r) (by simp only [List.length_cons]; omega) (by omega)
      refine ⟨y :: out, l₁, l', y :: r₁, r', ?_, hx, rfl, .right hx.symm hyx hfront, ?_⟩
      · simp [hsteps]
      · simp only [List.length_cons]
        omega
    | false =>
      obtain ⟨out, l₁, l', r₁, r', hsteps, rfl, hy, hfront, hlength⟩ :=
        ih (l := l) (r := y :: r) (by omega) (by simp only [List.length_cons]; omega)
      refine ⟨x :: out, x :: l₁, l', r₁, r', ?_, rfl, hy, .left hy.symm hyx hfront, ?_⟩
      · simp [hsteps]
      · simp only [List.length_cons]
        omega

namespace Front

variable {l' r' out : List α}

theorem perm (h : Front less l' r' l r out) : out.Perm (l ++ r) := by
  induction h with
  | nil => exact .refl _
  | left _ _ _ ih => exact ih.cons _
  | right _ _ _ ih => exact (ih.cons _).trans List.perm_middle.symm

theorem spec (h : Front less l' r' l r out) (hm : Mergeable less S R (l ++ l') (r ++ r')) :
    (∀ x ∈ l, ∀ y ∈ r', less y x = false) ∧ (∀ y ∈ r, ∀ x ∈ l', less y x = true) ∧
      out.Pairwise R := by
  induction h with
  | nil => exact ⟨by simp, by simp, .nil⟩
  | @left x y l r r₀ out hy hyx hfront ih =>
    obtain ⟨hstays, hpasses, hout⟩ := ih hm.tail_left
    have hall : ∀ z ∈ r ++ r', less z x = false := by
      rw [hy] at hm ⊢
      exact hm.not_less_all hyx
    refine ⟨List.forall_mem_cons.mpr ⟨fun z hz => ?_, hstays⟩, hpasses,
      List.pairwise_cons.mpr ⟨fun z hz => ?_, hout⟩⟩
    · exact hall z (List.mem_append_right r hz)
    · rcases List.mem_append.mp (hfront.perm.mem_iff.mp hz) with hz | hz
      · exact (List.pairwise_cons.mp hm.left).1 z (List.mem_append_left l' hz)
      · have hz' := List.mem_append_left r' hz
        exact hm.stays List.mem_cons_self hz' (hall z hz')
  | @right x y l r l₀ out hx hyx hfront ih =>
    obtain ⟨hstays, hpasses, hout⟩ := ih hm.tail_right
    have hall : ∀ z ∈ l ++ l', less y z = true := by
      rw [hx] at hm ⊢
      exact hm.less_all hyx
    refine ⟨hstays, List.forall_mem_cons.mpr ⟨fun z hz => ?_, hpasses⟩,
      List.pairwise_cons.mpr ⟨fun z hz => ?_, hout⟩⟩
    · exact hall z (List.mem_append_right l hz)
    · rcases List.mem_append.mp (hfront.perm.mem_iff.mp hz) with hz | hz
      · have hz' := List.mem_append_left l' hz
        exact hm.passes hz' List.mem_cons_self (hall z hz')
      · exact (List.pairwise_cons.mp hm.right).1 z (List.mem_append_left r' hz)

end Front

/-- Two lists merged from both ends at once. Each is what the merge from the front has taken and its
rest, and it is what the merge from behind has left and its end. -/
structure Meeting (less : α → α → Bool) (l r : List α) where
  (front leftTaken leftRest rightTaken rightRest : List α)
  (back leftLeft leftEnd rightLeft rightEnd : List α)
  length_le : l.length ≤ r.length
  left : l = leftTaken ++ leftRest
  right : r = rightTaken ++ rightRest
  merged : Front less leftRest rightRest leftTaken rightTaken front
  taken : leftTaken.length + rightTaken.length = l.length
  left_end : l = leftLeft ++ leftEnd
  right_end : r = rightLeft ++ rightEnd
  merged_end : Front (fun y x => less x y) rightLeft.reverse leftLeft.reverse rightEnd.reverse
    leftEnd.reverse back
  taken_end : leftEnd.length + rightEnd.length = l.length

namespace Meeting

variable (m : Meeting less l r)

def fromLeft : Nat :=
  if l.length < m.leftRest.length + m.leftLeft.length then r.length - l.length else 0

def fromRight : Nat :=
  r.length - l.length - m.fromLeft

/-- What the merge from behind has left is what the one from the front has taken, and the values
between them. -/
def Complete : Prop :=
  m.leftRest.length - m.fromLeft + m.leftLeft.length = l.length ∧
    m.rightRest.length - m.fromRight + m.rightLeft.length = r.length

instance decidableComplete : Decidable m.Complete :=
  inferInstanceAs (Decidable (_ ∧ _))

def joined : List α :=
  m.front ++ (m.leftRest.take m.fromLeft ++ m.rightRest.take m.fromRight) ++ m.back.reverse

theorem mergeable_front (hm : Mergeable less S R l r) :
    Mergeable less S R (m.leftTaken ++ m.leftRest) (m.rightTaken ++ m.rightRest) := by
  rwa [← m.left, ← m.right]

theorem mergeable_end (hm : Mergeable less S R l r) :
    Mergeable less S R (m.leftLeft ++ m.leftEnd) (m.rightLeft ++ m.rightEnd) := by
  rwa [← m.left_end, ← m.right_end]

theorem exists_between (hm : Mergeable less S R l r) : ∃ ms ks,
    m.leftRest = ms ++ m.leftEnd ∧ m.leftLeft = m.leftTaken ++ ms ∧
      m.rightRest = ks ++ m.rightEnd ∧ m.rightLeft = m.rightTaken ++ ks := by
  obtain ⟨hstays, hpasses, -⟩ := m.merged.spec (m.mergeable_front hm)
  have hflip := (m.mergeable_end hm).flip
  rw [List.reverse_append, List.reverse_append] at hflip
  obtain ⟨hstays', hpasses', -⟩ := m.merged_end.spec hflip
  simp only [List.mem_reverse] at hstays' hpasses'
  have hle := m.length_le
  have htaken := m.taken
  have htaken' := m.taken_end
  have hlengths := congrArg List.length m.left
  have hlengthsr := congrArg List.length m.right
  simp only [List.length_append] at hlengths hlengthsr
  -- a value that both merges take leaves one of the other list that neither takes
  obtain ⟨ms, hleft, hrest⟩ | ⟨ms, hrest, hend⟩ :=
      List.append_eq_append_iff.mp (m.left.symm.trans m.left_end) <;>
    obtain ⟨ks, hleftr, hrestr⟩ | ⟨ks, hrestr, hendr⟩ :=
      List.append_eq_append_iff.mp (m.right.symm.trans m.right_end)
  · exact ⟨ms, ks, hrest, hleft, hrestr, hleftr⟩
  · have hempty : ks = [] := by
      refine List.eq_nil_iff_forall_not_mem.mpr fun y hy => ?_
      obtain ⟨x, hx⟩ : ∃ x, x ∈ ms := by
        apply List.exists_mem_of_length_pos
        have hpos := List.length_pos_of_mem hy
        simp only [hrest, hendr, hrestr, List.length_append] at hlengths hlengthsr htaken htaken'
        omega
      have hless := hpasses y (by simp [hrestr, hy]) x (by simp [hrest, hx])
      simp [hstays' y (by simp [hendr, hy]) x (by simp [hleft, hx])] at hless
    exact ⟨ms, [], hrest, hleft, by simp [hendr, hempty], by simp [hrestr, hempty]⟩
  · have hempty : ms = [] := by
      refine List.eq_nil_iff_forall_not_mem.mpr fun x hx => ?_
      obtain ⟨y, hy⟩ : ∃ y, y ∈ ks := by
        apply List.exists_mem_of_length_pos
        have hpos := List.length_pos_of_mem hx
        simp only [hrest, hend, hrestr, List.length_append] at hlengths hlengthsr htaken htaken'
        omega
      have hless := hpasses' x (by simp [hend, hx]) y (by simp [hleftr, hy])
      simp [hstays x (by simp [hrest, hx]) y (by simp [hrestr, hy])] at hless
    exact ⟨[], ks, by simp [hend, hempty], by simp [hrest, hempty], hrestr, hleftr⟩
  · have hempty : ms = [] ∧ ks = [] := by
      simp only [← List.length_eq_zero_iff]
      simp only [hrest, hend, hrestr, hendr, List.length_append] at hlengths hlengthsr htaken htaken'
      omega
    exact ⟨[], [], by simp [hend, hempty.1], by simp [hrest, hempty.1], by simp [hendr, hempty.2],
      by simp [hrestr, hempty.2]⟩

end Meeting

theorem Mergeable.pairwise_meet {l₁ m p r₁ k q front back : List α}
    (hm : Mergeable less S R (l₁ ++ m ++ p) (r₁ ++ k ++ q))
    (hfront : Front less (m ++ p) (k ++ q) l₁ r₁ front)
    (hback : Front (fun y x => less x y) (r₁ ++ k).reverse (l₁ ++ m).reverse q.reverse p.reverse
      back) (hcount : m.length + k.length ≤ 1) :
    (front ++ (m ++ k) ++ back.reverse).Pairwise R := by
  have hreverse (as bs : List α) : (as ++ bs).reverse = bs.reverse ++ as.reverse :=
    List.reverse_append
  have hflip := hm.flip
  rw [hreverse (r₁ ++ k), hreverse (l₁ ++ m)] at hflip
  obtain ⟨hstays', hpasses', hbackR⟩ := hback.spec hflip
  rw [List.append_assoc, List.append_assoc] at hm
  obtain ⟨hstays, hpasses, hfrontR⟩ := hfront.spec hm
  have hmiddle : (m ++ k).Pairwise R := by
    match m, k with
    | [], [] => exact .nil
    | [x], [] | [], [x] => exact List.pairwise_singleton R x
    | _ :: _ :: _, _ | _ :: _, _ :: _ | _, _ :: _ :: _ => simp at hcount; omega
  have hl := hm.left
  have hr := hm.right
  simp only [List.pairwise_append, List.mem_append, List.mem_reverse] at hl hr hstays' hpasses'
  have hmem : ∀ {z}, z ∈ back.reverse → z ∈ q ∨ z ∈ p := by
    intro z hz
    simpa using hback.perm.mem_iff.mp (List.mem_reverse.mp hz)
  rw [List.append_assoc]
  refine List.pairwise_append.mpr ⟨hfrontR, List.pairwise_append.mpr
    ⟨hmiddle, List.pairwise_reverse.mpr hbackR, ?_⟩, ?_⟩
  · intro z hz w hw
    rcases List.mem_append.mp hz with hz | hz <;> rcases hmem hw with hw | hw
    · exact hm.stays (by simp [hz]) (by simp [hw]) (hstays' w hw z (.inr hz))
    · exact hl.2.1.2.2 z hz w hw
    · exact hr.2.1.2.2 z hz w hw
    · exact hm.passes (by simp [hw]) (by simp [hz]) (hpasses' w hw z (.inr hz))
  · intro z hz w hw
    have hrest : (w ∈ m ∨ w ∈ p) ∨ (w ∈ k ∨ w ∈ q) := by
      rcases List.mem_append.mp hw with hw | hw
      · exact (List.mem_append.mp hw).imp .inl .inl
      · exact (hmem hw).elim (fun h => .inr (.inr h)) fun h => .inl (.inr h)
    rcases List.mem_append.mp (hfront.perm.mem_iff.mp hz) with hz | hz <;>
      rcases hrest with hw | hw
    · exact hl.2.2 z hz w hw
    · have hw' : w ∈ k ++ q := List.mem_append.mpr hw
      exact hm.stays (by simp [hz]) (List.mem_append_right r₁ hw') (hstays z hz w hw')
    · have hw' : w ∈ m ++ p := List.mem_append.mpr hw
      exact hm.passes (List.mem_append_right l₁ hw') (by simp [hz]) (hpasses z hz w hw')
    · exact hr.2.2 z hz w hw

namespace Meeting

variable (m : Meeting less l r)

theorem complete_pairwise (hm : Mergeable less S R l r) (hge : r.length ≤ l.length + 1) :
    m.Complete ∧ m.joined.Pairwise R := by
  obtain ⟨ms, ks, hrest, hleft, hrestr, hleftr⟩ := m.exists_between hm
  have hle := m.length_le
  have htaken := m.taken
  have htaken' := m.taken_end
  have hlengths := congrArg List.length m.left
  have hlengthsr := congrArg List.length m.right
  simp only [hrest, hrestr, List.length_append] at hlengths hlengthsr
  have hms : m.fromLeft = ms.length := by
    rw [fromLeft, hrest, hleft]
    simp only [List.length_append]
    split <;> omega
  have hks : m.fromRight = ks.length := by
    rw [fromRight, hms]
    omega
  have hfront := m.merged
  have hback := m.merged_end
  have hm' := m.mergeable_end hm
  rw [hleft, hleftr] at hm'
  rw [hrest, hrestr] at hfront
  rw [hleft, hleftr] at hback
  constructor
  · rw [Complete, hms, hks, hrest, hleft, hrestr, hleftr]
    simp only [List.length_append]
    omega
  · rw [joined, hms, hks, hrest, hrestr, List.take_left, List.take_left]
    exact hm'.pairwise_meet hfront hback (by omega)

theorem eq_drop {xs front rest left last : List α} {i : Nat} (h : xs = front ++ rest)
    (hlast : xs = left ++ last) (hlength : last.length = rest.length - i) : last = rest.drop i := by
  have hrest : rest.drop i <:+ xs := by
    rw [h]
    exact (List.drop_suffix i rest).trans (List.suffix_append front rest)
  have hend : last <:+ xs := by
    rw [hlast]
    exact List.suffix_append left last
  have heq : last.length = (rest.drop i).length := by rw [List.length_drop, hlength]
  exact (List.suffix_of_suffix_length_le hend hrest (Nat.le_of_eq heq)).eq_of_length heq

variable {m}

theorem perm_joined (h : m.Complete) : m.joined.Perm (l ++ r) := by
  obtain ⟨hleft, hright⟩ := h
  have hlength := congrArg List.length m.left_end
  have hlengthr := congrArg List.length m.right_end
  rw [List.length_append] at hlength hlengthr
  have hend : m.leftEnd = m.leftRest.drop m.fromLeft := eq_drop m.left m.left_end (by omega)
  have hendr : m.rightEnd = m.rightRest.drop m.fromRight := eq_drop m.right m.right_end (by omega)
  have hback : m.back.reverse.Perm (m.rightEnd ++ m.leftEnd) := by
    refine (List.reverse_perm _).trans (m.merged_end.perm.trans ?_)
    exact (List.reverse_perm _).append (List.reverse_perm _)
  refine ((m.merged.perm.append_right _).append hback).trans ?_
  classical
  rw [List.perm_iff_count]
  intro z
  have hz := congrArg (List.count z) (List.take_append_drop m.fromLeft m.leftRest)
  have hzr := congrArg (List.count z) (List.take_append_drop m.fromRight m.rightRest)
  rw [← hend] at hz
  rw [← hendr] at hzr
  have hl := congrArg (List.count z) m.left
  have hr := congrArg (List.count z) m.right
  simp only [List.count_append] at hz hzr hl hr ⊢
  omega

end Meeting

variable (less) in
theorem exists_meeting (hle : l.length ≤ r.length) : ∃ m : Meeting less l r,
    mergeHalves less l r = if m.Complete then some m.joined else none := by
  obtain ⟨front, l₁, l', r₁, r', hsteps, hl, hr, hfront, htaken⟩ :=
    mergeSteps_front less (Nat.le_refl l.length) hle
  obtain ⟨back, q, q', p, p', hsteps', hr', hl', hback, htaken'⟩ :=
    mergeSteps_front (fun y x => less x y) (l := r.reverse) (r := l.reverse)
      (n := l.length) (by simpa using hle) (by simp)
  refine ⟨⟨front, l₁, l', r₁, r', back, p'.reverse, p.reverse, q'.reverse, q.reverse, hle, hl, hr,
    hfront, htaken, ?_, ?_, ?_, ?_⟩, ?_⟩
  · rw [← List.reverse_append, ← hl', List.reverse_reverse]
  · rw [← List.reverse_append, ← hr', List.reverse_reverse]
  · simpa only [List.reverse_reverse] using hback
  · simpa [Nat.add_comm] using htaken'
  · simp only [mergeHalves, hsteps, hsteps', Meeting.Complete, Meeting.joined, Meeting.fromLeft,
      Meeting.fromRight, List.length_reverse]

theorem mergeHalves_sorts {xs ys : List α} (hl : Stable less S xs l) (hr : Stable less S ys r)
    (hle : l.length ≤ r.length) (hge : r.length ≤ l.length + 1) :
    Sorts less S (xs ++ ys) (mergeHalves less l r) := by
  obtain ⟨m, hm⟩ := exists_meeting less hle
  have hmeet {earlier : α → α → Prop} (hS : Ordered less S) (he : (xs ++ ys).Pairwise earlier) :
      m.Complete ∧ m.joined.Pairwise (Before less earlier) :=
    m.complete_pairwise (.of_stable hS hl hr he) hge
  rw [hm]
  split
  · rename_i hcomplete
    exact ⟨List.forall_mem_append.mpr ⟨hl.within, hr.within⟩,
      (Meeting.perm_joined hcomplete).trans (hl.perm.append hr.perm),
      fun hS _ he => (hmeet hS he).2⟩
  · rename_i hcomplete
    intro hS
    have hany : (xs ++ ys).Pairwise fun _ _ => True := List.pairwise_of_forall fun _ _ => trivial
    exact hcomplete (hmeet hS hany).1

end SceneScript.Sorting
