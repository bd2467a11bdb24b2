import SceneScript.Sorting.Runs

namespace SceneScript.Sorting

variable {α : Type} {less : α → α → Bool} {S : α → Prop} {earlier : α → α → Prop}

/-- On the values in question the comparison is that of an order, in which values may be equal. -/
structure Ordered (less : α → α → Bool) (S : α → Prop) : Prop where
  asymm {a b : α} : S a → S b → less a b = true → less b a = false
  trans {a b c : α} : S a → S b → S c → less b a = false → less c b = false → less c a = false

namespace Ordered

theorem lt_of_lt_of_le (h : Ordered less S) {a b c : α} (ha : S a) (hb : S b) (hc : S c)
    (hab : less a b = true) (hbc : less c b = false) : less a c = true := by
  cases hac : less a c with
  | true => rfl
  | false => simp [h.trans hb hc ha hbc hac] at hab

theorem lt_of_le_of_lt (h : Ordered less S) {a b c : α} (ha : S a) (hb : S b) (hc : S c)
    (hab : less b a = false) (hbc : less b c = true) : less a c = true := by
  cases hac : less a c with
  | true => rfl
  | false => simp [h.trans hc ha hb hac hab] at hbc

theorem lt_trans (h : Ordered less S) {a b c : α} (ha : S a) (hb : S b) (hc : S c)
    (hab : less a b = true) (hbc : less b c = true) : less a c = true :=
  h.lt_of_lt_of_le ha hb hc hab (h.asymm hb hc hbc)

theorem flip (h : Ordered less S) : Ordered (fun a b => less b a) S where
  asymm ha hb := h.asymm hb ha
  trans ha hb hc hab hbc := h.trans hc hb ha hbc hab

end Ordered

def Before (less : α → α → Bool) (earlier : α → α → Prop) (a b : α) : Prop :=
  less b a = false ∧ (less a b = true ∨ earlier a b)

theorem Before.of_less (hS : Ordered less S) {a b : α} (ha : S a) (hb : S b)
    (h : less a b = true) : Before less earlier a b :=
  ⟨hS.asymm ha hb h, .inl h⟩

/-- The second list has the values of the first. If the comparison is that of an order they ascend,
and equal ones stand as in the first list. -/
structure Stable (less : α → α → Bool) (S : α → Prop) (xs ys : List α) : Prop where
  within : ∀ x ∈ xs, S x
  perm : ys.Perm xs
  before : Ordered less S → ∀ {earlier : α → α → Prop}, xs.Pairwise earlier →
    ys.Pairwise (Before less earlier)

namespace Stable

variable {xs ys zs ws : List α}

theorem within_right (h : Stable less S xs ys) : ∀ y ∈ ys, S y :=
  fun y hy => h.within y (h.perm.mem_iff.mp hy)

theorem self (hxs : ∀ x ∈ xs, S x)
    (h : Ordered less S → xs.Pairwise fun a b => less b a = false) : Stable less S xs xs where
  within := hxs
  perm := .refl _
  before hS _ he := (h hS).imp₂ (fun _ _ hab he => ⟨hab, .inr he⟩) he

theorem reverse (hxs : ∀ x ∈ xs, S x)
    (h : Ordered less S → xs.Pairwise fun a b => less b a = true) :
    Stable less S xs xs.reverse where
  within := hxs
  perm := List.reverse_perm xs
  before hS _ _ := by
    refine List.pairwise_reverse.mpr ((h hS).imp_of_mem fun ha hb hab => ?_)
    exact .of_less hS (hxs _ hb) (hxs _ ha) hab

theorem divide {p q : α → Bool} (hq : ∀ x, q x = !p x) (hp : Stable less S (xs.filter p) ys)
    (hn : Stable less S (xs.filter q) zs)
    (hless : Ordered less S → ∀ a ∈ xs, ∀ b ∈ xs, p a = true → q b = true → less a b = true) :
    Stable less S xs (ys ++ zs) := by
  obtain rfl : q = fun x => !p x := funext hq
  have hperm : (xs.filter p ++ xs.filter fun x => !p x).Perm xs := List.filter_append_perm p xs
  have hxs : ∀ x ∈ xs, S x := fun x hx =>
    (List.mem_append.mp (hperm.mem_iff.mpr hx)).elim (hp.within x) (hn.within x)
  refine ⟨hxs, (hp.perm.append hn.perm).trans hperm, fun hS earlier he => ?_⟩
  refine List.pairwise_append.mpr ⟨hp.before hS (he.filter _), hn.before hS (he.filter _), ?_⟩
  intro a ha b hb
  obtain ⟨ha, hpa⟩ := List.mem_filter.mp (hp.perm.mem_iff.mp ha)
  obtain ⟨hb, hqb⟩ := List.mem_filter.mp (hn.perm.mem_iff.mp hb)
  exact .of_less hS (hxs a ha) (hxs b hb) (hless hS a ha b hb hpa hqb)

end Stable

/-- A value of which something is known, or no value, which there may be under a condition only. -/
def Yields {β : Type} (sure : Prop) (P : β → Prop) : Option β → Prop
  | some b => P b
  | none => ¬sure

namespace Yields

variable {β γ : Type} {sure : Prop} {P : β → Prop} {Q : γ → Prop} {o : Option β}

theorem imp {Q : β → Prop} (h : Yields sure P o) (hPQ : ∀ b, P b → Q b) : Yields sure Q o := by
  cases o with
  | some b => exact hPQ b h
  | none => exact h

theorem bind {f : β → Option γ} (h : Yields sure P o) (hf : ∀ b, P b → Yields sure Q (f b)) :
    Yields sure Q (o.bind f) := by
  cases o with
  | some b => exact hf b h
  | none => exact h

theorem map {f : β → γ} (h : Yields sure P o) (hf : ∀ b, P b → Q (f b)) :
    Yields sure Q (o.map f) := by
  cases o with
  | some b => exact hf b h
  | none => exact h

end Yields

abbrev Sorts (less : α → α → Bool) (S : α → Prop) (xs : List α) : Option (List α) → Prop :=
  Yields (Ordered less S) (Stable less S xs)

section Insertion

theorem insertLast_perm (x : α) (ys : List α) : (insertLast less x ys).Perm (x :: ys) := by
  induction ys with
  | nil => exact .refl _
  | cons y ys ih =>
    simp only [insertLast]
    split
    · exact (ih.cons y).trans (.swap x y ys)
    · exact .refl _

theorem insertLast_before (hS : Ordered less S) {x : α} {ys : List α} (hx : S x)
    (hys : ∀ y ∈ ys, S y) (he : ∀ y ∈ ys, earlier y x)
    (h : ys.Pairwise fun b a => Before less earlier a b) :
    (insertLast less x ys).Pairwise fun b a => Before less earlier a b := by
  induction ys with
  | nil => exact List.pairwise_singleton _ _
  | cons y ys ih =>
    obtain ⟨hy, hrest⟩ := List.pairwise_cons.mp h
    obtain ⟨hSy, hSys⟩ := List.forall_mem_cons.mp hys
    obtain ⟨hey, heys⟩ := List.forall_mem_cons.mp he
    simp only [insertLast]
    split
    · rename_i hless
      refine List.pairwise_cons.mpr ⟨fun z hz => ?_, ih hSys heys hrest⟩
      rcases List.mem_cons.mp ((insertLast_perm x ys).mem_iff.mp hz) with rfl | hz
      · exact .of_less hS hx hSy hless
      · exact hy z hz
    · rename_i hless
      have hxy : less x y = false := by simpa using hless
      refine List.pairwise_cons.mpr ⟨fun z hz => ⟨?_, .inr (he z hz)⟩, h⟩
      rcases List.mem_cons.mp hz with rfl | hz
      · exact hxy
      · exact hS.trans (hSys z hz) hSy hx (hy z hz).1 hxy

theorem Stable.insertLast {xs ys : List α} {x : α} (h : Stable less S xs ys.reverse) (hx : S x) :
    Stable less S (xs ++ [x]) (insertLast less x ys).reverse where
  within := List.forall_mem_append.mpr ⟨h.within, by simpa using hx⟩
  perm := by
    have hperm : (Sorting.insertLast less x ys).reverse.Perm (x :: ys) :=
      (List.reverse_perm _).trans (insertLast_perm x ys)
    have hys : ys.Perm xs := (List.reverse_perm ys).symm.trans h.perm
    exact hperm.trans ((hys.cons x).trans (List.perm_append_singleton x xs).symm)
  before hS _ he := by
    obtain ⟨hxs, -, hlast⟩ := List.pairwise_append.mp he
    have hmem : ∀ y ∈ ys, y ∈ xs := fun y hy => h.perm.mem_iff.mp (List.mem_reverse.mpr hy)
    have hbefore := List.pairwise_reverse.mp (h.before hS hxs)
    refine List.pairwise_reverse.mpr ?_
    exact insertLast_before hS hx (fun y hy => h.within y (hmem y hy))
      (fun y hy => hlast y (hmem y hy) x (List.mem_singleton_self x)) hbefore

theorem Stable.extend {xs ys rest : List α} (h : Stable less S xs ys)
    (hrest : ∀ x ∈ rest, S x) : Stable less S (xs ++ rest) (extend less ys rest) := by
  have hfold : ∀ back, Stable less S xs back.reverse → Stable less S (xs ++ rest)
      (rest.foldl (fun back x => Sorting.insertLast less x back) back).reverse := by
    induction rest generalizing xs ys with
    | nil => simp
    | cons x rest ih =>
      intro back hback
      obtain ⟨hx, hrest⟩ := List.forall_mem_cons.mp hrest
      have hnext := hback.insertLast hx
      rw [List.append_cons]
      exact ih hnext hrest _ hnext
  exact hfold ys.reverse (by rwa [List.reverse_reverse])

theorem Stable.insertionSort {xs : List α} (hxs : ∀ x ∈ xs, S x) :
    Stable less S xs (insertionSort less xs) :=
  Stable.extend (self (by simp) fun _ => .nil) hxs

end Insertion

end SceneScript.Sorting
