import Mathlib.Data.List.Induction
import SceneScript.Proofs.Version.NewestFirst

namespace SceneScript.Registry

theorem versions_register (r : Registry) (version : String) (engine : Engine) :
    (r.register version engine).versions = r.versions.filter (· != version) ++ [version] := by
  simp [versions, register, List.filter_map, Function.comp_def]

theorem lookup_filter_ne {v w : String} (h : w ≠ v) (entries : List (String × Engine)) :
    (entries.filter fun e => e.1 != v).lookup w = entries.lookup w := by
  induction entries with
  | nil => rfl
  | cons e entries ih =>
    obtain ⟨u, engine⟩ := e
    by_cases hu : u = v
    · have hw : (w == u) = false := by simpa [hu] using h
      rw [List.filter_cons_of_neg (by simp [hu]), ih, List.lookup_cons, hw]
    · simp [hu, ih, List.lookup_cons]

theorem lookup_filter_self (v : String) (entries : List (String × Engine)) :
    (entries.filter fun e => e.1 != v).lookup v = none := by
  rw [List.lookup_eq_none_iff]
  intro e he
  have hne : e.1 ≠ v := by simpa using (List.mem_filter.mp he).2
  simpa using hne.symm

theorem lookup_register (r : Registry) (version : String) (engine : Engine) (w : String) :
    (r.register version engine).entries.lookup w =
      if w = version then some engine else r.entries.lookup w := by
  by_cases h : w = version
  · subst h
    simp [register, List.lookup_append, lookup_filter_self]
  · have hw : (w == version) = false := by simpa using h
    simp [register, List.lookup_append, lookup_filter_ne h, List.lookup_cons, h, hw]

theorem load_eq_ok_iff {r : Registry} {v : String} {engine : Engine} :
    r.load v = .ok engine ↔ r.entries.lookup v = some engine := by
  unfold load
  cases r.entries.lookup v <;> simp

theorem load_eq_error_iff {r : Registry} {v : String} {e : Failure} :
    r.load v = .error e ↔ e = .unknownVersion v ∧ v ∉ r.versions := by
  unfold load
  cases hlookup : r.entries.lookup v with
  | some engine =>
    have hmem : v ∈ r.versions := by
      obtain ⟨front, back, hentries, -⟩ := List.lookup_eq_some_iff.mp hlookup
      simp [versions, hentries]
    simp [hmem]
  | none =>
    have hmem : v ∉ r.versions := by
      intro hv
      obtain ⟨e, he, rfl⟩ := List.mem_map.mp hv
      simpa using List.lookup_eq_none_iff.mp hlookup e he
    simp [hmem, eq_comm]

theorem newest_eq_ok_iff {r : Registry} {v : String} :
    r.newest = .ok v ↔ ∃ vs, r.available = .ok (v :: vs) := by
  unfold newest
  cases r.available with
  | error e => simp [bind, Except.bind]
  | ok vs => cases vs <;> simp [bind, Except.bind]

theorem newest_eq_error_iff {r : Registry} {e : Failure} :
    r.newest = .error e ↔ e = .noVersions ∧ r.versions = [] ∨ r.available = .error e := by
  have hnil {vs : List String} (h : r.available = .ok vs) : r.versions = [] ↔ vs = [] := by
    rw [← List.length_eq_zero_iff, ← (available_perm h).length_eq, List.length_eq_zero_iff]
  unfold newest
  cases havailable : r.available with
  | error e' =>
    have hversions : r.versions ≠ [] := by
      intro hempty
      have hnone := (available_eq_error_iff.mp havailable).2
      rw [hempty] at hnone
      cases hnone
    simp [bind, Except.bind, hversions]
  | ok vs => cases vs <;> simp [bind, Except.bind, hnil havailable, eq_comm]

theorem available_of_length_le {r : Registry} (h : r.versions.length ≤ Sorting.greatestInserted) :
    ∃ vs, r.available = .ok vs :=
  ⟨_, available_eq_ok_iff.mpr (Sorting.sort_of_length_le h)⟩

theorem available_error_cases {r : Registry} {e : Failure} (h : r.available = .error e) :
    e = .unordered ∧ ¬Version.TransitiveOn r.versions ∧
      Sorting.greatestInserted < r.versions.length := by
  refine ⟨(available_eq_error_iff.mp h).1, fun htransitive => ?_,
    Nat.lt_of_not_le fun hlength => ?_⟩
  · obtain ⟨vs, hvs, -⟩ := Version.available_descending htransitive
    rw [h] at hvs
    cases hvs
  · obtain ⟨vs, hvs⟩ := available_of_length_le hlength
    rw [h] at hvs
    cases hvs

theorem load_newest {r : Registry} {v : String} (h : r.newest = .ok v) :
    ∃ engine, r.load v = .ok engine := by
  obtain ⟨vs, havailable⟩ := newest_eq_ok_iff.mp h
  have hv : v ∈ r.versions := (available_perm havailable).mem_iff.mp List.mem_cons_self
  cases hload : r.load v with
  | ok engine => exact ⟨engine, rfl⟩
  | error e => exact absurd hv (load_eq_error_iff.mp hload).2

def registerAll (r : Registry) (history : List (String × Engine)) : Registry :=
  history.foldl (fun r e => r.register e.1 e.2) r

theorem registerAll_concat (r : Registry) (history : List (String × Engine))
    (e : String × Engine) :
    r.registerAll (history ++ [e]) = (r.registerAll history).register e.1 e.2 :=
  List.foldl_append

/-- The last registration of the second version comes after each registration of the first. -/
def LastBefore (history : List (String × Engine)) (v w : String) : Prop :=
  ∃ front back, history = front ++ back ∧ v ∉ back.map Prod.fst ∧ w ∈ back.map Prod.fst

theorem LastBefore.concat {history : List (String × Engine)} {v w : String}
    (h : LastBefore history v w) {e : String × Engine} (he : v ≠ e.1) :
    LastBefore (history ++ [e]) v w := by
  obtain ⟨front, back, rfl, hv, hw⟩ := h
  exact ⟨front, back ++ [e], by simp, by simp [hv, he], by simp [hw]⟩

theorem LastBefore.ne {history : List (String × Engine)} {v w : String}
    (h : LastBefore history v w) : v ≠ w := by
  obtain ⟨front, back, -, hv, hw⟩ := h
  rintro rfl
  exact hv hw

def LastEngine (history : List (String × Engine)) (v : String) (engine : Engine) : Prop :=
  ∃ front back, history = front ++ (v, engine) :: back ∧ v ∉ back.map Prod.fst

section History

variable (history : List (String × Engine))

theorem mem_versions_registerAll {v : String} :
    v ∈ (empty.registerAll history).versions ↔ v ∈ history.map Prod.fst := by
  induction history using List.reverseRecOn with
  | nil => simp [registerAll, empty, versions]
  | append_singleton history e ih =>
    rw [registerAll_concat, versions_register]
    by_cases hv : v = e.1 <;> simp_all

theorem versions_lastBefore :
    (empty.registerAll history).versions.Pairwise (LastBefore history) := by
  induction history using List.reverseRecOn with
  | nil => exact List.Pairwise.nil
  | append_singleton history e ih =>
    have hne : ∀ v ∈ (empty.registerAll history).versions.filter (· != e.1), v ≠ e.1 := by
      intro v hv
      simpa using (List.mem_filter.mp hv).2
    rw [registerAll_concat, versions_register, List.pairwise_append]
    refine ⟨?_, List.pairwise_singleton _ _, ?_⟩
    · exact (ih.filter _).imp_of_mem fun hv _ h => h.concat (hne _ hv)
    · intro v hv w hw
      obtain rfl := List.mem_singleton.mp hw
      exact ⟨history, [e], rfl, by simpa using hne v hv, by simp⟩

theorem lookup_registerAll (v : String) :
    (empty.registerAll history).entries.lookup v = history.reverse.lookup v := by
  induction history using List.reverseRecOn with
  | nil => rfl
  | append_singleton history e ih =>
    rw [registerAll_concat, lookup_register, ih, List.reverse_concat, List.lookup_cons]
    by_cases h : v = e.1
    · simp [h]
    · have hv : (v == e.1) = false := by simpa using h
      simp [h, hv]

theorem load_registerAll {v : String} {engine : Engine} :
    (empty.registerAll history).load v = .ok engine ↔ LastEngine history v engine := by
  rw [load_eq_ok_iff, lookup_registerAll, List.lookup_eq_some_iff]
  constructor
  · rintro ⟨back, front, h, hv⟩
    refine ⟨front.reverse, back.reverse, ?_, ?_⟩
    · simpa using congrArg List.reverse h
    · rintro hmem
      obtain ⟨e, he, rfl⟩ := List.mem_map.mp hmem
      simpa using hv e (List.mem_reverse.mp he)
  · rintro ⟨front, back, rfl, hv⟩
    refine ⟨back.reverse, front.reverse, by simp, fun e he => ?_⟩
    have hne : v ≠ e.1 := fun h =>
      hv (h ▸ List.mem_map_of_mem (List.mem_reverse.mp he))
    simpa using hne

theorem versions_registerAll_eq_nil_iff :
    (empty.registerAll history).versions = [] ↔ history = [] := by
  simp only [List.eq_nil_iff_forall_not_mem, mem_versions_registerAll]
  simp

end History

/-- The versions of a registry are those of its history, each once and in the order of their last
registrations. Each is loaded with the engine that it was last registered with, and no other is
known. The list of the newest has each of them once. There may be no such list, and then no newest
version, where more than twenty versions have no order; otherwise the first of the list can be
loaded, if there are any. -/
theorem registered_last (history : List (String × Engine)) :
    let r := empty.registerAll history
    (r.versions.Nodup ∧ r.versions.Pairwise (LastBefore history) ∧
      ∀ v, v ∈ r.versions ↔ v ∈ history.map Prod.fst) ∧
    (∀ v engine, r.load v = .ok engine ↔ LastEngine history v engine) ∧
    (∀ v e, r.load v = .error e ↔ e = .unknownVersion v ∧ v ∉ history.map Prod.fst) ∧
    (∀ vs, r.available = .ok vs → ∀ v, vs.count v = if v ∈ history.map Prod.fst then 1 else 0) ∧
    (∀ e, r.available = .error e →
      e = .unordered ∧ ¬Version.TransitiveOn r.versions ∧ 20 < r.versions.length) ∧
    (∀ e, r.newest = .error e ↔ e = .noVersions ∧ history = [] ∨ r.available = .error e) ∧
    ∀ v, r.newest = .ok v → ∃ engine, r.load v = .ok engine := by
  intro r
  have hordered : r.versions.Pairwise (LastBefore history) := versions_lastBefore history
  have hnodup : r.versions.Nodup := hordered.imp LastBefore.ne
  have hmem : ∀ {v}, v ∈ r.versions ↔ v ∈ history.map Prod.fst := mem_versions_registerAll history
  refine ⟨⟨hnodup, hordered, fun v => hmem⟩, fun v engine => load_registerAll history,
    fun v e => ?_, fun vs hvs v => ?_, fun e => available_error_cases, fun e => ?_,
    fun v => load_newest⟩
  · rw [load_eq_error_iff, hmem]
  · rw [(available_perm hvs).count_eq v, hnodup.count, if_congr hmem rfl rfl]
  · rw [newest_eq_error_iff, versions_registerAll_eq_nil_iff]

/-- `9` and `10` are compared as numbers, and either with `9rc1` as text. -/
def candidates : List (String × Engine) :=
  ["1.10", "1.10rc1", "1.9", "1.9rc1", "1.8", "1.8rc1", "1.7", "1.7rc1", "1.6", "1.6rc1", "1.5",
    "1.5rc1", "1.4", "1.4rc1", "1.3", "1.3rc1", "1.2", "1.2rc1", "1.1", "1.1rc1", "1.0",
    "1.0rc1"].map fun v => (v, Engine.tagged v)

theorem registered_last_candidates :
    let r := empty.registerAll candidates
    r.available = .error .unordered ∧ ¬Version.TransitiveOn r.versions ∧
      r.newest = .error .unordered := by
  intro r
  have havailable : r.available = .error .unordered := by decide +kernel
  obtain ⟨-, -, -, -, herror, hnewest, -⟩ := registered_last candidates
  exact ⟨havailable, (herror _ havailable).2.1, (hnewest _).mpr (.inr havailable)⟩

end SceneScript.Registry
