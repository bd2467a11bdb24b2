import Mathlib.Data.List.Lex
import Mathlib.Data.Prod.Lex
import Mathlib.Order.Compare
import Mathlib.Order.WithBot
import SceneScript.Proofs.Script.Registrations
import SceneScript.Proofs.Script.Segments

namespace SceneScript.Version

open Script Text

def Dotted (text : List Char) (numbers : List Nat) : Prop :=
  (text.splitOn '.').map number? = numbers.map some

instance decidableDotted (text : List Char) (numbers : List Nat) : Decidable (Dotted text numbers) :=
  inferInstanceAs (Decidable (_ = _))

def bare (version : String) : List Char :=
  (trim version.toList).dropWhile (· == 'v')

structure Numbers where
  core : List Nat
  preRelease : Option (List Nat) := none
deriving DecidableEq, Repr

inductive Written (version : String) : Numbers → Prop
  | release {core : List Nat} : Dotted (bare version) core → Written version ⟨core, none⟩
  | preRelease {front back : List Char} {core pre : List Nat} :
      bare version = front ++ '-' :: back → Dotted front core → Dotted back pre →
      Written version ⟨core, some pre⟩

/-- The core decides, where a list comes before one that it starts, and then the pre-release, where
a release is above all others. -/
def Numbers.rank (n : Numbers) : List Nat ×ₗ WithTop (List Nat) :=
  toLex (n.core, n.preRelease)

theorem Numbers.rank_injective : Function.Injective rank := by
  rintro ⟨core, preRelease⟩ ⟨core', preRelease'⟩ h
  obtain ⟨rfl, rfl⟩ := Prod.mk.inj (toLex.injective h)
  rfl

instance Numbers.linearOrder : LinearOrder Numbers :=
  LinearOrder.lift' rank rank_injective

theorem dash_not_mem_of_number? {s : List Char} {n : Nat} (h : number? s = some n) : '-' ∉ s := by
  have hdigits : ∀ {t : List Char} {m : Nat}, digits? t = some m → '-' ∉ t := by
    intro t m ht hm
    unfold digits? at ht
    split at ht
    · simp at ht
    · rename_i hall
      simp only [Bool.or_eq_true, Bool.not_eq_true', not_or, Bool.not_eq_false] at hall
      exact absurd (List.all_eq_true.mp hall.2 _ hm) (by decide)
  have hmagnitude := (Option.filter_eq_some_iff.mp h).1
  split at hmagnitude
  · simpa using hdigits hmagnitude
  · exact hdigits hmagnitude

theorem exists_piece {c separator : Char} {text : List Char} (h : c ∈ text) (hc : c ≠ separator) :
    ∃ piece ∈ text.splitOn separator, c ∈ piece := by
  induction text with
  | nil => simp at h
  | cons d text ih =>
    obtain ⟨first, rest, hsplit⟩ := List.exists_cons_of_ne_nil (List.splitOn_ne_nil separator text)
    rw [List.splitOn_cons_eq_if_modifyHead, hsplit]
    rw [hsplit] at ih
    rcases List.mem_cons.mp h with rfl | h
    · simp [hc]
    · obtain ⟨piece, hpiece, hmem⟩ := ih h
      split
      · exact ⟨piece, List.mem_cons_of_mem _ hpiece, hmem⟩
      · rcases List.mem_cons.mp hpiece with rfl | hpiece
        · exact ⟨d :: piece, by simp, List.mem_cons_of_mem d hmem⟩
        · exact ⟨piece, by simp [hpiece], hmem⟩

theorem Dotted.dash_not_mem {text : List Char} {numbers : List Nat} (h : Dotted text numbers) :
    '-' ∉ text := by
  intro hdash
  have hpieces : ∃ piece ∈ text.splitOn '.', '-' ∈ piece := exists_piece hdash (by decide)
  obtain ⟨piece, hpiece, hmem⟩ := hpieces
  have hnumber : number? piece ∈ numbers.map some := h ▸ List.mem_map_of_mem hpiece
  obtain ⟨n, -, hn⟩ := List.mem_map.mp hnumber
  exact dash_not_mem_of_number? hn.symm hmem

theorem parts_of_cut {version : String} {core pre : List Char}
    (h : cut? '-' (bare version) = some (core, pre)) : parts version.toList = (core, some pre) := by
  unfold bare at h
  simp only [parts, h]

theorem parts_of_uncut {version : String} (h : cut? '-' (bare version) = none) :
    parts version.toList = (bare version, none) := by
  unfold bare at h
  simp only [parts, h, bare]

theorem Written.parts {version : String} {n : Numbers} (h : Written version n) :
    ∃ core pre, parts version.toList = (core, pre) ∧ Dotted core n.core ∧
      Option.Rel Dotted pre n.preRelease := by
  cases h with
  | release hcore =>
    exact ⟨_, _, parts_of_uncut (cut?_eq_none hcore.dash_not_mem), hcore, .none⟩
  | preRelease hbare hfront hback =>
    have hcut := hbare ▸ cut?_append hfront.dash_not_mem _
    exact ⟨_, _, parts_of_cut hcut, hfront, .some hback⟩

theorem compares_cons {o p : Ordering} {m n : Nat} {ms ns : List Nat} (h : o.Compares m n)
    (hs : p.Compares ms ns) : (o.then p).Compares (m :: ms) (n :: ns) := by
  cases o with
  | lt => exact List.cons_lt_cons_iff.mpr (.inl h)
  | gt => exact List.cons_lt_cons_iff.mpr (.inl h)
  | eq =>
    obtain rfl : m = n := h
    cases p with
    | lt => exact List.cons_lt_cons_iff.mpr (.inr ⟨rfl, hs⟩)
    | gt => exact List.cons_lt_cons_iff.mpr (.inr ⟨rfl, hs⟩)
    | eq => exact congrArg (m :: ·) hs

theorem compareLex_compares {as bs : List (List Char)} {ms ns : List Nat}
    (ha : as.map number? = ms.map some) (hb : bs.map number? = ns.map some) :
    (List.compareLex compareComponent as bs).Compares ms ns := by
  induction as generalizing bs ms ns with
  | nil =>
    obtain rfl : ms = [] := by simpa using ha.symm
    cases bs with
    | nil =>
      obtain rfl : ns = [] := by simpa using hb.symm
      rfl
    | cons b bs =>
      obtain ⟨n, ns, rfl, -, -⟩ := List.map_eq_cons_iff.mp hb.symm
      exact List.nil_lt_cons n ns
  | cons a as ih =>
    obtain ⟨m, ms, rfl, hm, hms⟩ := List.map_eq_cons_iff.mp ha.symm
    cases bs with
    | nil =>
      obtain rfl : ns = [] := by simpa using hb.symm
      exact List.nil_lt_cons m ms
    | cons b bs =>
      obtain ⟨n, ns, rfl, hn, hns⟩ := List.map_eq_cons_iff.mp hb.symm
      have hcomponent : compareComponent a b = cmp m n := by
        rw [compareComponent, ← hm, ← hn, cmp_eq_compare]
      rw [List.compareLex_cons_cons, hcomponent]
      exact compares_cons (cmp_compares m n) (ih hms.symm hns.symm)

theorem compareComponents_compares {a b : List Char} {ms ns : List Nat} (ha : Dotted a ms)
    (hb : Dotted b ns) : (compareComponents a b).Compares ms ns :=
  compareLex_compares ha hb

theorem compares_coe {o : Ordering} {ms ns : List Nat} (h : o.Compares ms ns) :
    o.Compares (ms : WithTop (List Nat)) ns := by
  cases o with
  | lt => exact WithTop.coe_lt_coe.mpr h
  | gt => exact WithTop.coe_lt_coe.mpr h
  | eq => exact congrArg _ h

theorem comparePreRelease_compares {p q : Option (List Char)} {m n : Option (List Nat)}
    (hp : Option.Rel Dotted p m) (hq : Option.Rel Dotted q n) :
    (comparePreRelease p q).Compares (α := WithTop (List Nat)) m n := by
  cases hp with
  | none =>
    cases hq with
    | none => rfl
    | some hq => exact WithTop.coe_lt_top _
  | some hp =>
    cases hq with
    | none => exact WithTop.coe_lt_top _
    | some hq => exact compares_coe (compareComponents_compares hp hq)

theorem compares_toLex {α β : Type} [LT α] [LT β] {o p : Ordering} {a b : α} {x y : β}
    (h : o.Compares a b) (hs : p.Compares x y) :
    (o.then p).Compares (toLex (a, x)) (toLex (b, y)) := by
  cases o with
  | lt => exact Prod.Lex.toLex_lt_toLex.mpr (.inl h)
  | gt => exact Prod.Lex.toLex_lt_toLex.mpr (.inl h)
  | eq =>
    obtain rfl : a = b := h
    cases p with
    | lt => exact Prod.Lex.toLex_lt_toLex.mpr (.inr ⟨rfl, hs⟩)
    | gt => exact Prod.Lex.toLex_lt_toLex.mpr (.inr ⟨rfl, hs⟩)
    | eq => exact congrArg (fun z => toLex (a, z)) hs

theorem compares_of_rank {o : Ordering} {m n : Numbers} (h : o.Compares m.rank n.rank) :
    o.Compares m n := by
  cases o with
  | lt => exact h
  | gt => exact h
  | eq => exact Numbers.rank_injective h

theorem order_eq_cmp {v w : String} {m n : Numbers} (hv : Written v m) (hw : Written w n) :
    order v w = cmp m n := by
  obtain ⟨coreV, preV, hpartsV, hcoreV, hpreV⟩ := hv.parts
  obtain ⟨coreW, preW, hpartsW, hcoreW, hpreW⟩ := hw.parts
  have hcore := compareComponents_compares hcoreV hcoreW
  have hpre := comparePreRelease_compares hpreV hpreW
  have hnumbers := compares_of_rank (compares_toLex hcore hpre)
  rw [hnumbers.cmp_eq]
  simp only [order, hpartsV, hpartsW]

theorem transitiveOn_of_written {vs : List String} {numbers : String → Numbers}
    (h : ∀ v ∈ vs, Written v (numbers v)) : TransitiveOn vs := by
  intro a ha b hb c hc
  rw [order_eq_cmp (h a ha) (h b hb), order_eq_cmp (h b hb) (h c hc),
    order_eq_cmp (h a ha) (h c hc), (cmp_compares _ _).ne_gt, (cmp_compares _ _).ne_gt,
    (cmp_compares _ _).ne_gt]
  exact le_trans

/-- Versions of numbers are compared by these. Where a history registers such versions alone, the
list of the newest has them in descending order, and equal ones in the order of their last
registrations; the newest is the first of the greatest. -/
theorem available_of_numbers {v w : String} {m n : Numbers} (hv : Written v m) (hw : Written w n)
    {history : List (String × Engine)} {numbers : String → Numbers}
    (h : ∀ e ∈ history, Written e.1 (numbers e.1)) :
    order v w = cmp m n ∧
    let r := Registry.empty.registerAll history
    let Before (v w : String) : Prop := numbers w < numbers v ∨
      numbers w = numbers v ∧ Registry.LastBefore history v w
    (∃ vs, r.available = .ok vs ∧ vs.Perm r.versions ∧ vs.Pairwise Before) ∧
    (history = [] ∧ r.newest = .error .noVersions ∨
      ∃ v, r.newest = .ok v ∧ v ∈ r.versions ∧ ∀ w ∈ r.versions, w ≠ v → Before v w) := by
  refine ⟨order_eq_cmp hv hw, ?_⟩
  intro r Before
  have hwritten : ∀ v ∈ r.versions, Written v (numbers v) := by
    intro v hv
    obtain ⟨e, he, rfl⟩ := List.mem_map.mp ((Registry.mem_versions_registerAll history).mp hv)
    exact h e he
  obtain ⟨vs, havailable, hstable⟩ := available_stable (transitiveOn_of_written hwritten)
    (Registry.versions_lastBefore history)
  have hperm : vs.Perm r.versions := Registry.available_perm havailable
  have hordered : vs.Pairwise Before := by
    refine hstable.imp_of_mem fun {a b} ha hb hab => ?_
    rw [order_eq_cmp (hwritten a (hperm.mem_iff.mp ha)) (hwritten b (hperm.mem_iff.mp hb)),
      cmp_eq_gt_iff, cmp_eq_eq_iff] at hab
    exact hab.imp_right fun h => ⟨h.1.symm, h.2⟩
  refine ⟨⟨vs, havailable, hperm, hordered⟩, ?_⟩
  cases vs with
  | nil =>
    have hnil : r.versions = [] := hperm.nil_eq.symm
    exact .inl ⟨(Registry.versions_registerAll_eq_nil_iff history).mp hnil,
      Registry.newest_eq_error_iff.mpr (.inl ⟨rfl, hnil⟩)⟩
  | cons v vs =>
    refine .inr ⟨v, Registry.newest_eq_ok_iff.mpr ⟨vs, havailable⟩,
      hperm.mem_iff.mp List.mem_cons_self, fun w hw hne => ?_⟩
    have hvs : w ∈ vs := (List.mem_cons.mp (hperm.mem_iff.mpr hw)).resolve_left hne
    exact (List.pairwise_cons.mp hordered).1 w hvs

def pointReleases : List (String × Engine) :=
  ["1.0", "2.0-9", " v+2.00-10", "v1.0", "1.0"].map fun v => (v, Engine.tagged v)

def pointNumbers (version : String) : Numbers :=
  if version = "2.0-9" then ⟨[2, 0], some [9]⟩
  else if version = " v+2.00-10" then ⟨[2, 0], some [10]⟩
  else ⟨[1, 0], none⟩

theorem available_of_numbers_pointReleases :
    (∀ e ∈ pointReleases, Written e.1 (pointNumbers e.1)) ∧
    (Registry.empty.registerAll pointReleases).available =
      .ok [" v+2.00-10", "2.0-9", "v1.0", "1.0"] ∧
    pointNumbers "1.0" = pointNumbers "v1.0" ∧
    Registry.LastBefore pointReleases "v1.0" "1.0" := by
  have hone : Written "1.0" ⟨[1, 0], none⟩ := .release (by decide +kernel)
  have hprefixed : Written "v1.0" ⟨[1, 0], none⟩ := .release (by decide +kernel)
  have hnine : Written "2.0-9" ⟨[2, 0], some [9]⟩ :=
    .preRelease (show _ = "2.0".toList ++ '-' :: "9".toList by decide +kernel)
      (by decide +kernel) (by decide +kernel)
  have hten : Written " v+2.00-10" ⟨[2, 0], some [10]⟩ :=
    .preRelease (show _ = "+2.00".toList ++ '-' :: "10".toList by decide +kernel)
      (by decide +kernel) (by decide +kernel)
  have hwritten : ∀ e ∈ pointReleases, Written e.1 (pointNumbers e.1) := by
    simp only [pointReleases, List.map_cons, List.map_nil, List.forall_mem_cons]
    exact ⟨hone, hnine, hten, hprefixed, hone, by simp⟩
  have havailable : (Registry.empty.registerAll pointReleases).available =
      .ok [" v+2.00-10", "2.0-9", "v1.0", "1.0"] := by decide +kernel
  obtain ⟨-, ⟨vs, hvs, -, hordered⟩, -⟩ := available_of_numbers hone hprefixed hwritten
  obtain rfl : _ = vs := Except.ok.inj (havailable.symm.trans hvs)
  have hlast := List.pairwise_iff_getElem.mp hordered 2 3 (by decide) (by decide) (by decide)
  refine ⟨hwritten, havailable, rfl, ?_⟩
  rcases hlast with hlt | ⟨-, hlast⟩
  · exact absurd hlt (lt_irrefl _)
  · exact hlast

end SceneScript.Version
