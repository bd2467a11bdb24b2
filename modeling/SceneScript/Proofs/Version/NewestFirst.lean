import SceneScript.Proofs.Sorting.Runs
import SceneScript.Proofs.Version.Lexicographic
import SceneScript.Script.Registry

namespace SceneScript

theorem Registry.available_eq_ok_iff {r : Registry} {vs : List String} :
    r.available = .ok vs ↔ Version.newestFirst r.versions = some vs := by
  unfold available
  cases Version.newestFirst r.versions <;> simp

theorem Registry.available_eq_error_iff {r : Registry} {e : Failure} :
    r.available = .error e ↔ e = .unordered ∧ Version.newestFirst r.versions = none := by
  unfold available
  cases Version.newestFirst r.versions <;> simp [eq_comm]

theorem Registry.available_perm {r : Registry} {vs : List String} (h : r.available = .ok vs) :
    vs.Perm r.versions :=
  Sorting.sort_perm (available_eq_ok_iff.mp h)

namespace Version

theorem newer_eq_false_iff {v w : String} : newer v w = false ↔ order v w ≠ .gt := by
  rw [newer, decide_eq_false_iff_not, order_swap]
  cases order v w <;> simp

theorem TransitiveOn.ordered {vs : List String} (h : TransitiveOn vs) :
    Sorting.Ordered newer (· ∈ vs) where
  asymm {v w} _ _ hvw := by
    have hlt : order w v = .lt := of_decide_eq_true hvw
    rw [newer_eq_false_iff, hlt]
    decide
  trans {u v w} hu hv hw hvu hwv := by
    rw [newer_eq_false_iff] at hvu hwv ⊢
    exact h w hw v hv u hu hwv hvu

section Transitive

variable {r : Registry} {earlier : String → String → Prop}

theorem available_stable (ht : TransitiveOn r.versions) (h : r.versions.Pairwise earlier) :
    ∃ vs, r.available = .ok vs ∧
      vs.Pairwise fun v w => order v w = .gt ∨ order v w = .eq ∧ earlier v w := by
  obtain ⟨vs, hvs, hstable⟩ := Sorting.sort_stable ht.ordered
  refine ⟨vs, Registry.available_eq_ok_iff.mpr hvs, (hstable.before ht.ordered h).imp ?_⟩
  rintro v w ⟨hwv, hvw⟩
  rw [newer_eq_false_iff, order_swap] at hwv
  rw [newer, decide_eq_true_iff, order_swap] at hvw
  cases ho : order v w <;> simp_all

theorem available_descending (ht : TransitiveOn r.versions) :
    ∃ vs, r.available = .ok vs ∧ vs.Pairwise fun v w => order v w ≠ .lt := by
  have hany : r.versions.Pairwise fun _ _ => True := List.pairwise_of_forall fun _ _ => trivial
  obtain ⟨vs, hvs, hstable⟩ := available_stable ht hany
  refine ⟨vs, hvs, hstable.imp fun h => ?_⟩
  rcases h with h | ⟨h, -⟩ <;> simp [h]

end Transitive

/-- Two versions compare the same from either side. The order is transitive on the versions of a
registry just when the outer ones of those that stand between two others ascend, and where it is,
the list of these versions has the newest first. -/
theorem order_transitive_iff (r : Registry) (v w : String) :
    order v w = (order w v).swap ∧
    (TransitiveOn r.versions ↔ ∀ a ∈ r.versions, ∀ b ∈ r.versions, ∀ c ∈ r.versions,
      StandsBetween a b c → order a c = .lt) ∧
    (TransitiveOn r.versions → ∃ vs, r.available = .ok vs ∧
      vs.Perm r.versions ∧ vs.Pairwise fun v w => order v w ≠ .lt) := by
  refine ⟨order_swap v w, transitiveOn_iff, fun h => ?_⟩
  obtain ⟨vs, hvs, hdescending⟩ := available_descending h
  exact ⟨vs, hvs, Registry.available_perm hvs, hdescending⟩

def registered (versions : List String) : Registry :=
  ⟨versions.map (·, Engine.builtin)⟩

def releases : List String :=
  ["1.9.2", "v1.10.0", "1.10", "1.10.0-beta.2", "1.10.0-beta.10"]

theorem order_transitive_iff_releases :
    StandsBetween "10" "1a" "9" ∧ ¬TransitiveOn (registered ["10", "1a", "9"]).versions ∧
      TransitiveOn (registered releases).versions ∧
      ∃ vs, (registered releases).available = .ok vs ∧ vs.Pairwise fun v w => order v w ≠ .lt := by
  have hbetween : StandsBetween "10" "1a" "9" := by
    have h₁ : pieces "10" = [.component "10".toList, .release] := by decide +kernel
    have h₂ : pieces "1a" = [.component "1a".toList, .release] := by decide +kernel
    have h₃ : pieces "9" = [.component "9".toList, .release] := by decide +kernel
    rw [StandsBetween, h₁, h₂, h₃]
    exact .here (.intro (by decide +kernel) (by decide +kernel) (by decide +kernel)
      (by decide +kernel) (by decide +kernel))
  have hreleases : TransitiveOn (registered releases).versions := by
    unfold TransitiveOn
    decide +kernel
  obtain ⟨-, htransitive, -⟩ := order_transitive_iff (registered ["10", "1a", "9"]) "10" "9"
  obtain ⟨-, -, hnewest⟩ := order_transitive_iff (registered releases) "10" "9"
  obtain ⟨vs, hvs, -, hdescending⟩ := hnewest hreleases
  refine ⟨hbetween, fun h => ?_, hreleases, vs, hvs, hdescending⟩
  have hlt := htransitive.mp h "10" (by simp [registered, Registry.versions]) "1a"
    (by simp [registered, Registry.versions]) "9" (by simp [registered, Registry.versions]) hbetween
  exact absurd hlt (by decide +kernel)

end Version
end SceneScript
