import SceneScript.Proofs.Sorting.Merge

namespace SceneScript.Sorting

variable {α : Type} {less : α → α → Bool} {S : α → Prop} {earlier : α → α → Prop}

theorem joinPairs_perm (a b c d : α) : (joinPairs less a b c d).Perm [a, b, c, d] := by
  classical
  rw [List.perm_iff_count]
  intro x
  simp only [joinPairs]
  cases less c a <;> cases less d b <;> simp only [Bool.false_eq_true, if_true, if_false] <;>
    split <;> simp only [List.count_cons, List.count_nil] <;> omega

theorem joinPairs_eq_merge (hS : Ordered less S) {a b c d : α} (ha : S a) (hb : S b) (hc : S c)
    (hd : S d) (hab : less b a = false) (hcd : less d c = false) :
    joinPairs less a b c d = [a, b].merge [c, d] fun x y => !less y x := by
  cases hca : less c a <;> cases hdb : less d b
  · cases hcb : less c b <;> simp [joinPairs, hca, hdb, hcb]
  · have hcb : less c b = true := hS.lt_of_le_of_lt hc hd hb hcd hdb
    simp [joinPairs, hca, hdb, hcb, hcd]
  · have hda : less d a = false := hS.trans ha hb hd hab hdb
    simp [joinPairs, hca, hdb, hda, hab]
  · cases hda : less d a <;> simp [joinPairs, hca, hdb, hda]

variable (less) in
theorem Stable.pair {v w : α} (hv : S v) (hw : S w) :
    Stable less S [v, w] (if less w v then [w, v] else [v, w]) := by
  have hvw : ∀ x ∈ [v, w], S x := by simp [hv, hw]
  split
  · rename_i h
    exact .reverse hvw fun _ => by simpa using h
  · rename_i h
    exact .self hvw fun _ => by simpa using h

theorem Stable.joinPairs {xs ys : List α} {a b c d : α} (hl : Stable less S xs [a, b])
    (hr : Stable less S ys [c, d]) : Stable less S (xs ++ ys) (joinPairs less a b c d) where
  within := List.forall_mem_append.mpr ⟨hl.within, hr.within⟩
  perm := (joinPairs_perm a b c d).trans (hl.perm.append hr.perm)
  before hS _ he := by
    have hm := Mergeable.of_stable hS hl hr he
    rw [joinPairs_eq_merge hS (hl.within_right a (by simp)) (hl.within_right b (by simp))
      (hr.within_right c (by simp)) (hr.within_right d (by simp))
      (hm.le (List.pairwise_pair.mp hm.left)) (hm.le (List.pairwise_pair.mp hm.right))]
    exact hm.pairwise_merge

theorem Stable.sortFour {v₀ v₁ v₂ v₃ : α} (h : ∀ x ∈ [v₀, v₁, v₂, v₃], S x) :
    Stable less S [v₀, v₁, v₂, v₃] (sortFour less v₀ v₁ v₂ v₃) := by
  simp only [List.forall_mem_cons] at h
  obtain ⟨h₀, h₁, h₂, h₃, -⟩ := h
  have hl := Stable.pair less h₀ h₁
  have hr := Stable.pair less h₂ h₃
  rw [Sorting.sortFour]
  split at hl <;> split at hr <;> simp only [*, if_true, if_false, Bool.false_eq_true] <;>
    exact hl.joinPairs hr

theorem Stable.sortHalf {xs : List α} (hxs : ∀ x ∈ xs, S x) :
    Stable less S xs (sortHalf less xs) := by
  unfold Sorting.sortHalf
  split
  · rename_i v₀ v₁ v₂ v₃ rest
    have hfour : ∀ x ∈ [v₀, v₁, v₂, v₃], S x := fun x hx => hxs x (by simp at hx ⊢; grind)
    exact (Stable.sortFour hfour).extend fun x hx => hxs x (by simp [hx])
  · exact .insertionSort hxs

theorem smallSort_sorts {xs : List α} (hxs : ∀ x ∈ xs, S x) :
    Sorts less S xs (smallSort less xs) := by
  have hsort : ∀ ys : List α, (∀ y ∈ ys, S y) → Stable less S ys
      ((if xs.length < leastFours then insertionSort less else Sorting.sortHalf less) ys) := by
    intro ys hys
    split
    · exact .insertionSort hys
    · exact .sortHalf hys
  have hl := hsort (xs.take (xs.length / 2)) fun x hx => hxs x (List.mem_of_mem_take hx)
  have hr := hsort (xs.drop (xs.length / 2)) fun x hx => hxs x (List.mem_of_mem_drop hx)
  have hlength := hl.perm.length_eq
  have hlengthr := hr.perm.length_eq
  rw [List.length_take] at hlength
  rw [List.length_drop] at hlengthr
  have hmerged := mergeHalves_sorts hl hr (by omega) (by omega)
  rwa [List.take_append_drop] at hmerged

end SceneScript.Sorting
