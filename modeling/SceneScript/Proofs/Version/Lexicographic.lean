import SceneScript.Version.Order

namespace SceneScript.Version

open Text

instance orientedCmp_compareText : Std.OrientedCmp compareText :=
  inferInstanceAs (Std.OrientedCmp (List.compareLex (compareOn Char.toNat)))

instance transCmp_compareText : Std.TransCmp compareText :=
  inferInstanceAs (Std.TransCmp (List.compareLex (compareOn Char.toNat)))

theorem eq_of_compareText_eq {s t : List Char} (h : compareText s t = .eq) : s = t := by
  induction s generalizing t with
  | nil =>
    cases t with
    | nil => rfl
    | cons d t => simp [compareText, List.compareLex_nil_cons] at h
  | cons c s ih =>
    cases t with
    | nil => simp [compareText, List.compareLex_cons_nil] at h
    | cons d t =>
      simp only [compareText, List.compareLex_cons_cons, Ordering.then_eq_eq] at h
      have hc : c = d := Char.toNat_inj.mp (Nat.compare_eq_eq.mp h.1)
      rw [hc, ih h.2]

inductive Piece where
  | preRelease
  | release
  | component (text : List Char)
deriving DecidableEq, Repr

/-- A core that ends comes before one that goes on, and a pre-release before its release. -/
def comparePiece : Piece → Piece → Ordering
  | .component a, .component b => compareComponent a b
  | .component _, _ => .gt
  | _, .component _ => .lt
  | .preRelease, .preRelease => .eq
  | .preRelease, .release => .lt
  | .release, .preRelease => .gt
  | .release, .release => .eq

def ending : Option (List Char) → List Piece
  | none => [.release]
  | some pre => .preRelease :: (pre.splitOn '.').map .component

def pieces (version : String) : List Piece :=
  let (core, pre) := parts version.toList
  (core.splitOn '.').map .component ++ ending pre

theorem compareLex_components (as bs : List (List Char)) :
    List.compareLex comparePiece (as.map .component) (bs.map .component) =
      List.compareLex compareComponent as bs := by
  induction as generalizing bs with
  | nil => cases bs <;> rfl
  | cons a as ih =>
    cases bs with
    | nil => rfl
    | cons b bs =>
      simp only [List.map_cons, List.compareLex_cons_cons, ih]
      rfl

theorem compareLex_ending (p q : Option (List Char)) :
    List.compareLex comparePiece (ending p) (ending q) = comparePreRelease p q := by
  cases p with
  | none => cases q <;> rfl
  | some p =>
    cases q with
    | none => rfl
    | some q =>
      simp only [ending, List.compareLex_cons_cons, compareLex_components]
      rfl

theorem compareLex_pieces (as bs : List (List Char)) (p q : Option (List Char)) :
    List.compareLex comparePiece (as.map .component ++ ending p) (bs.map .component ++ ending q) =
      (List.compareLex compareComponent as bs).then (comparePreRelease p q) := by
  induction as generalizing bs with
  | nil =>
    cases bs with
    | nil => exact compareLex_ending p q
    | cons b bs => cases p <;> rfl
  | cons a as ih =>
    cases bs with
    | nil => cases q <;> rfl
    | cons b bs =>
      simp only [List.map_cons, List.cons_append, List.compareLex_cons_cons, ih,
        Ordering.then_assoc]
      rfl

theorem order_eq (a b : String) :
    order a b = List.compareLex comparePiece (pieces a) (pieces b) :=
  (compareLex_pieces ..).symm

theorem compareText_swap (a b : List Char) : compareText a b = (compareText b a).swap :=
  Std.OrientedCmp.eq_swap

theorem compareComponent_swap (a b : List Char) :
    compareComponent a b = (compareComponent b a).swap := by
  unfold compareComponent
  cases number? a with
  | none => cases number? b <;> exact compareText_swap a b
  | some m =>
    cases number? b with
    | none => exact compareText_swap a b
    | some n => exact (Nat.compare_swap n m).symm

theorem comparePiece_swap (x y : Piece) : comparePiece x y = (comparePiece y x).swap := by
  cases x with
  | component a =>
    cases y with
    | component b => exact compareComponent_swap a b
    | preRelease => rfl
    | release => rfl
  | preRelease => cases y <;> rfl
  | release => cases y <;> rfl

instance orientedCmp_comparePiece : Std.OrientedCmp comparePiece where
  eq_swap := comparePiece_swap _ _

theorem order_swap (a b : String) : order a b = (order b a).swap := by
  rw [order_eq, order_eq]
  exact Std.OrientedCmp.eq_swap

theorem compareText_cycle {a b c : List Char} (hab : compareText a b ≠ .gt)
    (hbc : compareText b c ≠ .gt) (hac : compareText a c ≠ .lt) :
    compareText a b = .eq ∧ compareText b c = .eq ∧ compareText a c = .eq := by
  have hca : (compareText c a).isLE := by
    rw [compareText_swap c a, Ordering.isLE_swap]
    cases h : compareText a c <;> simp_all
  have hab' : (compareText a b).isLE := Ordering.isLE_iff_ne_gt.mpr hab
  have hbc' : (compareText b c).isLE := Ordering.isLE_iff_ne_gt.mpr hbc
  have hba : (compareText b a).isLE := Std.TransCmp.isLE_trans hbc' hca
  have hcb : (compareText c b).isLE := Std.TransCmp.isLE_trans hca hab'
  have hac' : (compareText a c).isLE := Std.TransCmp.isLE_trans hab' hbc'
  exact ⟨Std.OrientedCmp.isLE_antisymm hab' hba, Std.OrientedCmp.isLE_antisymm hbc' hcb,
    Std.OrientedCmp.isLE_antisymm hac' hca⟩

theorem compareText_lt_of_kind {a b : List Char} (hk : (number? a).isSome ≠ (number? b).isSome)
    (h : compareText a b ≠ .gt) : compareText a b = .lt := by
  cases hc : compareText a b with
  | lt => rfl
  | eq => exact absurd (by rw [eq_of_compareText_eq hc]) hk
  | gt => exact absurd hc h

inductive Splits : Piece → Piece → Piece → Prop
  | intro {a b c : List Char} : (number? a).isSome → number? b = none → (number? c).isSome →
      compareText a b = .lt → compareText b c = .lt →
      Splits (.component a) (.component b) (.component c)

theorem Splits.lt {x y z : Piece} (h : Splits x y z) :
    comparePiece x y = .lt ∧ comparePiece y z = .lt := by
  obtain ⟨ha, hb, hc, hab, hbc⟩ := h
  obtain ⟨m, hm⟩ := Option.isSome_iff_exists.mp ha
  obtain ⟨n, hn⟩ := Option.isSome_iff_exists.mp hc
  simp [comparePiece, compareComponent, hm, hb, hn, hab, hbc]

/-- Three components of which each is at most the next, in a circle: they are equal, or one of them
is a word that splits the other two. -/
theorem component_cycle {a b c : List Char} (hab : compareComponent a b ≠ .gt)
    (hbc : compareComponent b c ≠ .gt) (hac : compareComponent a c ≠ .lt) :
    (compareComponent a b = .eq ∧ compareComponent b c = .eq ∧ compareComponent a c = .eq) ∨
    Splits (.component a) (.component b) (.component c) ∨
    Splits (.component b) (.component c) (.component a) ∨
    Splits (.component c) (.component a) (.component b) := by
  have hca : ∀ {s t : List Char}, compareText s t ≠ .lt → compareText t s ≠ .gt := by
    intro s t h
    rw [compareText_swap t s]
    cases hst : compareText s t <;> simp_all
  unfold compareComponent at *
  cases ha : number? a with
  | none =>
    cases hb : number? b with
    | none =>
      simp only [ha, hb] at hab hbc hac ⊢
      exact .inl (compareText_cycle hab hbc hac)
    | some n =>
      cases hc : number? c with
      | none =>
        simp only [ha, hb, hc] at hab hbc hac ⊢
        exact .inl (compareText_cycle hab hbc hac)
      | some k =>
        simp only [ha, hb, hc] at hab hbc hac
        refine .inr (.inr (.inr (.intro (by simp [hc]) ha (by simp [hb]) ?_ ?_)))
        · exact compareText_lt_of_kind (by simp [ha, hc]) (hca hac)
        · exact compareText_lt_of_kind (by simp [ha, hb]) hab
  | some m =>
    cases hb : number? b with
    | none =>
      cases hc : number? c with
      | none =>
        simp only [ha, hb, hc] at hab hbc hac ⊢
        exact .inl (compareText_cycle hab hbc hac)
      | some k =>
        simp only [ha, hb, hc] at hab hbc hac
        refine .inr (.inl (.intro (by simp [ha]) hb (by simp [hc]) ?_ ?_))
        · exact compareText_lt_of_kind (by simp [ha, hb]) hab
        · exact compareText_lt_of_kind (by simp [hb, hc]) hbc
    | some n =>
      cases hc : number? c with
      | none =>
        simp only [ha, hb, hc] at hab hbc hac
        refine .inr (.inr (.inl (.intro (by simp [hb]) hc (by simp [ha]) ?_ ?_)))
        · exact compareText_lt_of_kind (by simp [hb, hc]) hbc
        · exact compareText_lt_of_kind (by simp [ha, hc]) (hca hac)
      | some k =>
        simp only [ha, hb, hc, ne_eq, Nat.compare_ne_gt, Nat.compare_ne_lt] at hab hbc hac ⊢
        have hmn : m = n := by omega
        have hnk : n = k := by omega
        exact .inl (by simp [hmn, hnk])

theorem piece_cycle {x y z : Piece} (hxy : comparePiece x y ≠ .gt)
    (hyz : comparePiece y z ≠ .gt) (hxz : comparePiece x z ≠ .lt) :
    (comparePiece x y = .eq ∧ comparePiece y z = .eq ∧ comparePiece x z = .eq) ∨
    Splits x y z ∨ Splits y z x ∨ Splits z x y := by
  cases x with
  | component a =>
    cases y with
    | component b =>
      cases z with
      | component c => exact component_cycle hxy hyz hxz
      | preRelease => exact absurd rfl hyz
      | release => exact absurd rfl hyz
    | preRelease => exact absurd rfl hxy
    | release => exact absurd rfl hxy
  | preRelease => cases y <;> cases z <;> simp_all [comparePiece]
  | release => cases y <;> cases z <;> simp_all [comparePiece]

/-- Behind pieces that are equal, the first version has a number, the second a word above it, and
the third a number above the word. -/
inductive Between : List Piece → List Piece → List Piece → Prop
  | here {x y z : Piece} {xs ys zs : List Piece} :
      Splits x y z → Between (x :: xs) (y :: ys) (z :: zs)
  | behind {x y z : Piece} {xs ys zs : List Piece} :
      comparePiece x y = .eq → comparePiece y z = .eq → comparePiece x z = .eq →
      Between xs ys zs → Between (x :: xs) (y :: ys) (z :: zs)

theorem Between.lt {xs ys zs : List Piece} (h : Between xs ys zs) :
    List.compareLex comparePiece xs ys = .lt ∧ List.compareLex comparePiece ys zs = .lt := by
  induction h with
  | here h => simp [List.compareLex_cons_cons, h.lt.1, h.lt.2]
  | behind hxy hyz _ _ ih => simpa [List.compareLex_cons_cons, hxy, hyz] using ih

theorem then_ne_gt {o p : Ordering} (h : o.then p ≠ .gt) : o ≠ .gt := by
  cases o <;> simp_all

theorem then_ne_lt {o p : Ordering} (h : o.then p ≠ .lt) : o ≠ .lt := by
  cases o <;> simp_all

theorem pieces_cycle {xs ys zs : List Piece} (hxy : List.compareLex comparePiece xs ys ≠ .gt)
    (hyz : List.compareLex comparePiece ys zs ≠ .gt)
    (hxz : List.compareLex comparePiece xs zs = .gt) :
    Between xs ys zs ∨ Between ys zs xs ∨ Between zs xs ys := by
  have heq : ∀ {x y : Piece}, comparePiece x y = .eq → comparePiece y x = .eq :=
    fun h => by rw [comparePiece_swap, h]; rfl
  induction xs generalizing ys zs with
  | nil => cases zs <;> simp [List.compareLex_nil_nil, List.compareLex_nil_cons] at hxz
  | cons x xs ih =>
    cases ys with
    | nil => exact absurd List.compareLex_cons_nil hxy
    | cons y ys =>
      cases zs with
      | nil => exact absurd List.compareLex_cons_nil hyz
      | cons z zs =>
        simp only [List.compareLex_cons_cons] at hxy hyz hxz
        have hxz' : comparePiece x z ≠ .lt := then_ne_lt (by rw [hxz]; decide)
        obtain ⟨hx, hy, hz⟩ | h | h | h := piece_cycle (then_ne_gt hxy) (then_ne_gt hyz) hxz'
        · simp only [hx, hy, hz, Ordering.eq_then] at hxy hyz hxz
          rcases ih hxy hyz hxz with h | h | h
          · exact .inl (.behind hx hy hz h)
          · exact .inr (.inl (.behind hy (heq hz) (heq hx) h))
          · exact .inr (.inr (.behind (heq hz) hx (heq hy) h))
        · exact .inl (.here h)
        · exact .inr (.inl (.here h))
        · exact .inr (.inr (.here h))

def StandsBetween (a b c : String) : Prop :=
  Between (pieces a) (pieces b) (pieces c)

theorem order_cycle {a b c : String} (hab : order a b ≠ .gt) (hbc : order b c ≠ .gt)
    (hac : order a c = .gt) : StandsBetween a b c ∨ StandsBetween b c a ∨ StandsBetween c a b := by
  rw [order_eq] at hab hbc hac
  exact pieces_cycle hab hbc hac

theorem StandsBetween.lt {a b c : String} (h : StandsBetween a b c) :
    order a b = .lt ∧ order b c = .lt := by
  rw [order_eq, order_eq]
  exact Between.lt h

def TransitiveOn (versions : List String) : Prop :=
  ∀ a ∈ versions, ∀ b ∈ versions, ∀ c ∈ versions,
    order a b ≠ .gt → order b c ≠ .gt → order a c ≠ .gt

theorem transitiveOn_iff {versions : List String} :
    TransitiveOn versions ↔ ∀ a ∈ versions, ∀ b ∈ versions, ∀ c ∈ versions,
      StandsBetween a b c → order a c = .lt := by
  constructor
  · intro h a ha b hb c hc hs
    obtain ⟨hab, hbc⟩ := hs.lt
    have hac : order a c ≠ .gt := h a ha b hb c hc (by simp [hab]) (by simp [hbc])
    cases ho : order a c with
    | lt => rfl
    | gt => exact absurd ho hac
    | eq =>
      -- were they equal, the middle one would be at most the first
      have hca : order c a = .eq := by rw [order_swap, ho]; rfl
      have hba : order b a ≠ .gt := h b hb c hc a ha (by simp [hbc]) (by simp [hca])
      rw [order_swap, hab] at hba
      exact absurd rfl hba
  · intro h a ha b hb c hc hab hbc hac
    rcases order_cycle hab hbc hac with hs | hs | hs
    · rw [h a ha b hb c hc hs] at hac
      contradiction
    · have hba := h b hb c hc a ha hs
      rw [order_swap, hba] at hab
      exact hab rfl
    · have hcb := h c hc a ha b hb hs
      rw [order_swap, hcb] at hbc
      exact hbc rfl

end SceneScript.Version
