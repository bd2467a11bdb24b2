import SceneScript.Proofs.Sorting.Small

namespace SceneScript.Sorting

variable {α : Type} {less : α → α → Bool} {S : α → Prop} {eager : Bool}

section Cutting

theorem pairwise_take_chainLength {follows : α → α → Bool} {xs : List α}
    (htrans : ∀ a ∈ xs, ∀ b ∈ xs, ∀ c ∈ xs, follows a b = true → follows b c = true →
      follows a c = true) :
    (xs.take (chainLength follows xs)).Pairwise fun a b => follows a b = true := by
  induction xs using chainLength.induct follows with
  | case1 x y rest hxy ih =>
    have hrest := ih fun a ha b hb c hc =>
      htrans a (List.mem_cons_of_mem x ha) b (List.mem_cons_of_mem x hb) c
        (List.mem_cons_of_mem x hc)
    simp only [chainLength, hxy, if_true, List.take_succ_cons]
    refine List.pairwise_cons.mpr ⟨fun z hz => ?_, hrest⟩
    obtain ⟨n, hn⟩ : ∃ n, chainLength follows (y :: rest) = n + 1 := by
      cases rest with
      | nil => exact ⟨0, rfl⟩
      | cons z rest =>
        simp only [chainLength]
        split
        · exact ⟨_, rfl⟩
        · exact ⟨0, rfl⟩
    have hzmem : z ∈ x :: y :: rest := List.mem_cons_of_mem x (List.mem_of_mem_take hz)
    rw [hn, List.take_succ_cons] at hz hrest
    rcases List.mem_cons.mp hz with rfl | hz
    · exact hxy
    · exact htrans x List.mem_cons_self y (by simp) z hzmem hxy
        ((List.pairwise_cons.mp hrest).1 z hz)
  | case2 x y rest hxy =>
    simp only [chainLength, hxy, Bool.false_eq_true, if_false]
    exact List.pairwise_singleton _ _
  | case3 xs hxs =>
    match xs with
    | [] => exact .nil
    | [x] => exact List.pairwise_singleton _ _
    | x :: y :: rest => exact (hxs x y rest rfl).elim

theorem naturalRun_pairwise (hS : Ordered less S) {xs : List α} (hxs : ∀ x ∈ xs, S x) :
    (xs.take (naturalRun less xs).1).Pairwise fun a b => less b a = (naturalRun less xs).2 := by
  unfold naturalRun
  split
  · split
    · exact pairwise_take_chainLength fun a ha b hb c hc hab hbc =>
        hS.lt_trans (hxs c hc) (hxs b hb) (hxs a ha) hbc hab
    · refine (pairwise_take_chainLength fun a ha b hb c hc hab hbc => ?_).imp (by simp)
      simp only [Bool.not_eq_true'] at hab hbc ⊢
      exact hS.trans (hxs a ha) (hxs b hb) (hxs c hc) hab hbc
  · rename_i hne
    match xs with
    | [] => exact .nil
    | [x] => exact List.pairwise_singleton _ _
    | x :: y :: rest => exact (hne x y rest rfl).elim

def RunKind.Fits (less : α → α → Bool) (S : α → Prop) (eager : Bool) (items : List α) :
    RunKind → Prop
  | ascending => Ordered less S → items.Pairwise fun a b => less b a = false
  | descending => Ordered less S → items.Pairwise fun a b => less b a = true
  | short => True
  | unsorted => eager = false

variable (less eager) in
theorem nextRun_fits (good : Nat) {xs : List α} (hxs : ∀ x ∈ xs, S x) :
    (nextRun less good eager xs).2.Fits less S eager
      (xs.take (nextRun less good eager xs).1) := by
  simp only [nextRun]
  split
  · have hnatural := fun hS : Ordered less S => naturalRun_pairwise hS hxs
    split
    · rename_i hdescends
      simpa only [RunKind.Fits, hdescends] using hnatural
    · rename_i hdescends
      rw [Bool.not_eq_true] at hdescends
      simpa only [RunKind.Fits, hdescends] using hnatural
  · split
    · trivial
    · rename_i heager
      simpa [RunKind.Fits] using heager

theorem RunKind.Fits.take_pred {kind : RunKind} {x : α} {rest : List α} {n : Nat}
    (h : kind.Fits less S eager ((x :: rest).take n)) :
    kind.Fits less S eager (x :: rest.take (n - 1)) := by
  cases n with
  | succ n => exact h
  | zero =>
    cases kind with
    | ascending | descending => exact fun _ => List.pairwise_singleton _ _
    | short | unsorted => exact h

variable (less eager) in
theorem cut_spec (good : Nat) {xs : List α} (hxs : ∀ x ∈ xs, S x) :
    (cut less good eager xs).flatMap Prod.snd = xs ∧
      ∀ piece ∈ cut less good eager xs, piece.1.Fits less S eager piece.2 := by
  induction xs using cut.induct less good eager with
  | case1 => simp [cut]
  | case2 x rest length kind hrun ih =>
    have hfits := nextRun_fits less eager good hxs
    rw [hrun] at hfits
    obtain ⟨hflat, hall⟩ := ih fun z hz => hxs z (List.mem_cons_of_mem x (List.mem_of_mem_drop hz))
    rw [cut, hrun]
    refine ⟨?_, List.forall_mem_cons.mpr ⟨hfits.take_pred, hall⟩⟩
    rw [List.flatMap_cons, hflat, List.cons_append, List.take_append_drop]

end Cutting

section Joining

inductive Holds (less : α → α → Bool) (S : α → Prop) (eager : Bool) : List α → Run α → Prop
  | sorted {xs ys : List α} : Stable less S xs ys → Holds less S eager xs ⟨ys, true⟩
  | unsorted {xs : List α} : eager = false → (∀ x ∈ xs, S x) → Holds less S eager xs ⟨xs, false⟩

inductive AllHold (less : α → α → Bool) (S : α → Prop) (eager : Bool) :
    List α → List (Run α) → Prop
  | nil : AllHold less S eager [] []
  | cons {xs ys : List α} {run : Run α} {runs : List (Run α)} : Holds less S eager xs run →
      AllHold less S eager ys runs → AllHold less S eager (xs ++ ys) (run :: runs)

theorem RunKind.run_holds {kind : RunKind} {items : List α} (h : kind.Fits less S eager items)
    (hitems : ∀ x ∈ items, S x) :
    Yields (Ordered less S) (Holds less S eager items) (kind.run less items) := by
  cases kind with
  | ascending => exact .sorted (.self hitems h)
  | descending => exact .sorted (.reverse hitems h)
  | short => exact (smallSort_sorts hitems).map fun _ => .sorted
  | unsorted => exact .unsorted h hitems

theorem mapM_run_holds {pieces : List (RunKind × List α)}
    (hfits : ∀ piece ∈ pieces, piece.1.Fits less S eager piece.2)
    (hitems : ∀ x ∈ pieces.flatMap Prod.snd, S x) :
    Yields (Ordered less S) (AllHold less S eager (pieces.flatMap Prod.snd))
      (pieces.mapM fun piece => piece.1.run less piece.2) := by
  induction pieces with
  | nil => exact .nil
  | cons piece pieces ih =>
    obtain ⟨hfit, hfits⟩ := List.forall_mem_cons.mp hfits
    rw [List.flatMap_cons] at hitems ⊢
    obtain ⟨hitem, hitems⟩ := List.forall_mem_append.mp hitems
    rw [List.mapM_cons]
    refine (RunKind.run_holds hfit hitem).bind fun run hrun => ?_
    refine (ih hfits hitems).bind fun runs hruns => ?_
    exact AllHold.cons hrun hruns

variable {sort : List α → Option (List α)}

theorem Holds.finish {xs : List α} {run : Run α} (h : Holds less S eager xs run)
    (hsort : eager = false → ∀ ys, (∀ y ∈ ys, S y) → Sorts less S ys (sort ys)) :
    Sorts less S xs (run.finish sort) := by
  cases h with
  | sorted h => exact h
  | unsorted heager hxs => exact hsort heager xs hxs

theorem joinRuns_holds {xs ys : List α} {l r : Run α} (kept : Nat)
    (hsort : eager = false → ∀ ys, (∀ y ∈ ys, S y) → Sorts less S ys (sort ys))
    (hl : Holds less S eager xs l) (hr : Holds less S eager ys r) :
    Yields (Ordered less S) (Holds less S eager (xs ++ ys)) (joinRuns less sort kept l r) := by
  unfold joinRuns
  split
  · refine (hl.finish hsort).bind fun ls hls => ?_
    exact (hr.finish hsort).bind fun rs hrs => .sorted (hls.merge hrs)
  · rename_i hneither
    cases hl with
    | sorted => simp at hneither
    | unsorted heager hxs =>
      cases hr with
      | sorted => simp at hneither
      | unsorted _ hys => exact .unsorted heager (List.forall_mem_append.mpr ⟨hxs, hys⟩)

/-- Runs, the last one first, that stand for the parts of a list. -/
inductive Stacked (less : α → α → Bool) (S : α → Prop) (eager : Bool) :
    List α → List (Run α × Nat) → Prop
  | nil : Stacked less S eager [] []
  | push {front xs : List α} {stack : List (Run α × Nat)} {run : Run α} {depth : Nat} :
      Stacked less S eager front stack → Holds less S eager xs run →
      Stacked less S eager (front ++ xs) ((run, depth) :: stack)

variable {join : Run α → Run α → Option (Run α)}

theorem settle_holds (hjoin : ∀ {xs ys : List α} {l r : Run α}, Holds less S eager xs l →
      Holds less S eager ys r →
      Yields (Ordered less S) (Holds less S eager (xs ++ ys)) (join l r))
    {depth : Nat} {front xs : List α} {stack : List (Run α × Nat)} {last : Run α}
    (hstack : Stacked less S eager front stack) (hlast : Holds less S eager xs last) :
    Yields (Ordered less S) (fun settled => ∃ front' xs', front ++ xs = front' ++ xs' ∧
        Stacked less S eager front' settled.1 ∧ Holds less S eager xs' settled.2 ∧
        (depth = 0 → front' = []))
      (settle join depth stack last) := by
  induction hstack generalizing xs last with
  | nil => exact ⟨[], xs, rfl, .nil, hlast, fun _ => rfl⟩
  | @push front ys stack run d hstack hrun ih =>
    simp only [settle]
    split
    · rw [List.append_assoc]
      exact (hjoin hrun hlast).bind fun joined hjoined => ih hjoined
    · rename_i hdeep
      exact ⟨front ++ ys, xs, rfl, .push hstack hrun, hlast, by omega⟩

theorem joinAll_holds (hjoin : ∀ {xs ys : List α} {l r : Run α}, Holds less S eager xs l →
      Holds less S eager ys r →
      Yields (Ordered less S) (Holds less S eager (xs ++ ys)) (join l r))
    {length stop : Nat} {front xs rest : List α} {stack : List (Run α × Nat)} {last : Run α}
    {runs : List (Run α)} (hstack : Stacked less S eager front stack)
    (hlast : Holds less S eager xs last) (hruns : AllHold less S eager rest runs) :
    Yields (Ordered less S) (Holds less S eager (front ++ xs ++ rest))
      (joinAll join length stack last stop runs) := by
  induction hruns generalizing front xs stack last stop with
  | nil =>
    refine (settle_holds hjoin hstack hlast).map fun settled hsettled => ?_
    obtain ⟨front', xs', heq, -, hlast', hnil⟩ := hsettled
    rw [List.append_nil, heq, hnil rfl]
    exact hlast'
  | @cons ys rest next runs hnext hruns ih =>
    refine (settle_holds hjoin hstack hlast).bind fun settled hsettled => ?_
    obtain ⟨front', xs', heq, hstack', hlast', -⟩ := hsettled
    rw [heq, ← List.append_assoc]
    exact ih (.push hstack' hlast') hnext

theorem sortRuns_sorts {xs : List α} (hxs : ∀ x ∈ xs, S x)
    (hsort : eager = false → ∀ ys, (∀ y ∈ ys, S y) → Sorts less S ys (sort ys)) :
    Sorts less S xs (sortRuns less sort eager xs) := by
  obtain ⟨hflat, hfits⟩ := cut_spec less eager (goodLength xs.length) hxs
  have hruns := mapM_run_holds hfits (hflat.symm ▸ hxs)
  rw [hflat] at hruns
  refine hruns.bind fun runs hruns => ?_
  cases hruns with
  | nil => exact Stable.self hxs fun _ => .nil
  | cons hfirst hrest =>
    refine (joinAll_holds (joinRuns_holds _ hsort) .nil hfirst hrest).bind fun run hrun => ?_
    exact hrun.finish hsort

end Joining

section Quicksort

variable (less) in
theorem sample_holds {P : α → Prop} {valueAt : Nat → α} (h : ∀ i, P (valueAt i))
    (start length : Nat) : P (sample less valueAt start length) := by
  induction start, length using sample.induct with
  | case1 start length hlength =>
    rw [sample, if_pos hlength]
    exact h start
  | case2 start length hlength part ih₁ ih₂ ih₃ =>
    rw [sample, if_neg hlength]
    simp only [median]
    split
    · split
      · exact ih₂
      · exact ih₃
    · exact ih₁

theorem getD_mem (x : α) (rest : List α) (i : Nat) : (x :: rest).getD i x ∈ x :: rest := by
  rw [List.getD_eq_getElem?_getD]
  cases hi : (x :: rest)[i]? with
  | none => exact List.mem_cons_self
  | some y => exact List.mem_of_getElem? hi

variable {pivot : α} {xs below above : List α}

theorem Stable.pivot_least (hp : pivot ∈ xs) (hxs : ∀ x ∈ xs, S x)
    (hpivot : Ordered less S → ∀ x ∈ xs, less x pivot = false)
    (h : Stable less S (xs.filter fun x => less pivot x) above) :
    Stable less S xs ((xs.filter fun x => !less pivot x) ++ above) := by
  refine .divide (by simp) (.self (fun x hx => hxs x (List.mem_filter.mp hx).1) fun hS => ?_) h
    fun hS a ha b hb hpa hpb => ?_
  · refine List.pairwise_of_forall_mem_list fun a ha b hb => ?_
    obtain ⟨ha, hpa⟩ := List.mem_filter.mp ha
    obtain ⟨hb, -⟩ := List.mem_filter.mp hb
    exact hS.trans (hxs a ha) (hxs pivot hp) (hxs b hb) (by simpa using hpa) (hpivot hS b hb)
  · exact hS.lt_of_le_of_lt (hxs a ha) (hxs pivot hp) (hxs b hb) (by simpa using hpa) hpb

theorem Stable.around_pivot (hp : pivot ∈ xs) (hxs : ∀ x ∈ xs, S x)
    (hbelow : Stable less S (xs.filter fun x => less x pivot) below)
    (habove : Stable less S (xs.filter fun x => !less x pivot) above) :
    Stable less S xs (below ++ above) := by
  refine .divide (fun _ => rfl) hbelow habove fun hS a ha b hb hpa hpb => ?_
  exact hS.lt_of_lt_of_le (hxs a ha) (hxs pivot hp) (hxs b hb) hpa (by simpa using hpb)

theorem quicksort_sorts {limit : Nat} {least : Option α} (hxs : ∀ x ∈ xs, S x)
    (hleast : ∀ v ∈ least, S v ∧ (Ordered less S → ∀ x ∈ xs, less x v = false)) :
    Sorts less S xs (quicksort less limit least xs) := by
  induction limit generalizing least xs with
  | zero =>
    cases xs with
    | nil => exact Stable.self hxs fun _ => .nil
    | cons x rest =>
      simp only [quicksort]
      split
      · exact smallSort_sorts hxs
      · exact sortRuns_sorts hxs (by simp)
  | succ limit ih =>
    cases xs with
    | nil => exact Stable.self hxs fun _ => .nil
    | cons x rest =>
      have hpivot := sample_holds less (getD_mem x rest) 0 (x :: rest).length
      simp only [quicksort]
      generalize sample less ((x :: rest).getD · x) 0 (x :: rest).length = pivot at hpivot ⊢
      generalize x :: rest = xs at *
      have hfilter : ∀ (p : α → Bool), ∀ x ∈ xs.filter p, S x :=
        fun p x hx => hxs x (List.mem_filter.mp hx).1
      split
      · exact smallSort_sorts hxs
      split
      · rename_i hstop
        refine (ih (hfilter _) (by simp)).bind fun above habove => ?_
        refine Stable.pivot_least hpivot hxs (fun hS z hz => ?_) habove
        rcases Bool.or_eq_true_iff.mp hstop with hempty | hequal
        · simpa using List.filter_eq_nil_iff.mp (List.isEmpty_iff.mp hempty) z hz
        · -- the pivot is the value that the list does not go below
          obtain ⟨v, hv, hvp⟩ := (Option.any_eq_true _ _).mp hequal
          obtain ⟨hSv, hle⟩ := hleast v hv
          exact hS.trans (hxs _ hpivot) hSv (hxs z hz) (by simpa using hvp) (hle hS z hz)
      · refine (ih (hfilter _) fun v hv => ?_).bind fun above habove => ?_
        · obtain rfl := Option.some.inj hv
          exact ⟨hxs _ hpivot, fun _ z hz => by simpa using (List.mem_filter.mp hz).2⟩
        · refine (ih (hfilter _) fun v hv => ?_).bind fun below hbelow => ?_
          · exact ⟨(hleast v hv).1, fun hS z hz =>
              (hleast v hv).2 hS z (List.mem_filter.mp hz).1⟩
          · exact Stable.around_pivot hpivot hxs hbelow habove

end Quicksort

variable (less) in
theorem sort_sorts {xs : List α} (hxs : ∀ x ∈ xs, S x) : Sorts less S xs (sort less xs) := by
  unfold sort
  split
  · exact Stable.insertionSort hxs
  · exact sortRuns_sorts hxs fun _ ys hys => quicksort_sorts hys (by simp)

theorem sort_perm {xs ys : List α} (h : sort less xs = some ys) : ys.Perm xs := by
  have hsorts := sort_sorts less (S := (· ∈ xs)) fun _ hx => hx
  rw [h] at hsorts
  exact hsorts.perm

theorem sort_stable {xs : List α} (hS : Ordered less (· ∈ xs)) :
    ∃ ys, sort less xs = some ys ∧ Stable less (· ∈ xs) xs ys := by
  have hsorts := sort_sorts less (S := (· ∈ xs)) fun _ hx => hx
  cases hresult : sort less xs with
  | some ys =>
    rw [hresult] at hsorts
    exact ⟨ys, rfl, hsorts⟩
  | none =>
    rw [hresult] at hsorts
    exact absurd hS hsorts

theorem sort_of_length_le {xs : List α} (h : xs.length ≤ greatestInserted) :
    sort less xs = some (insertionSort less xs) :=
  if_pos h

end SceneScript.Sorting
