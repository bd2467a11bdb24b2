import SceneScript.Proofs.Correlation.Marked

namespace SceneScript.Correlation

open Json Text

structure Lists (text : List Char) (items : List Json) : Prop where
  read : ∃ v, read? text = some v ∧ v.get? "sentenceList" = some (.array items)
  key : listKey <:+: text

/-- Why no line of a script has a place in a text. The last case is that of a key that is written
with escapes. -/
inductive Unlisted (text : List Char) : LocateError → Prop
  | noJson : read? text = none → Unlisted text .invalidJson
  | noList {v : Json} : read? text = some v → v.get? "sentenceList" = none →
      Unlisted text .missingSentenceList
  | noArray {v list : Json} : read? text = some v → v.get? "sentenceList" = some list →
      (∀ items, list ≠ .array items) → Unlisted text .notAnArray
  | escaped {v : Json} {items : List Json} : read? text = some v →
      v.get? "sentenceList" = some (.array items) → ¬listKey <:+: text →
      Unlisted text .missingSentenceList

variable {text : List Char}

theorem lists_or_unlisted (text : List Char) :
    (∃ items, Lists text items) ∨ ∃ e, Unlisted text e := by
  cases hread : read? text with
  | none => exact .inr ⟨_, .noJson hread⟩
  | some v =>
    cases hlist : v.get? "sentenceList" with
    | none => exact .inr ⟨_, .noList hread hlist⟩
    | some list =>
      by_cases harray : ∃ items, list = .array items
      · obtain ⟨items, rfl⟩ := harray
        by_cases hkey : listKey <:+: text
        · exact .inl ⟨items, ⟨v, hread, hlist⟩, hkey⟩
        · exact .inr ⟨_, .escaped hread hlist hkey⟩
      · exact .inr ⟨_, .noArray hread hlist fun items h => harray ⟨items, h⟩⟩

theorem Unlisted.not_lists {e : LocateError} (h : Unlisted text e) (items : List Json) :
    ¬Lists text items := by
  rintro ⟨⟨v, hread, hlist⟩, hkey⟩
  cases h with
  | noJson hnone => simp [hnone] at hread
  | noList hread' hnone =>
    obtain rfl := Option.some.inj (hread.symm.trans hread')
    simp [hnone] at hlist
  | noArray hread' hlist' harray =>
    obtain rfl := Option.some.inj (hread.symm.trans hread')
    exact harray items (Option.some.inj (hlist'.symm.trans hlist))
  | escaped _ _ hmissing => exact hmissing hkey

theorem Unlisted.locate {e : LocateError} (h : Unlisted text e) {line : Nat} (hl : 1 ≤ line) :
    locate text line = .error e := by
  have hz : ¬line = 0 := by omega
  cases h with
  | noJson hread => simp only [Correlation.locate, hread]
  | noList hread hlist => simp only [Correlation.locate, hread, hlist]
  | @noArray v list hread hlist harray =>
    cases list with
    | array items => exact absurd rfl (harray items)
    | _ => simp only [Correlation.locate, hread, hlist]
  | escaped hread hlist hkey =>
    have hfront : before? listKey text = none := by
      rwa [← Option.not_isSome_iff_eq_none, before?_isSome_iff]
    simp only [Correlation.locate, hread, hlist, if_neg hz, hfront]

def listMarks (items : List Json) : List Nat :=
  markedLines ((Json.array items).prettyLines.map Line.text)

theorem locate_eq_ok_iff {line : Nat} {p : Position} :
    locate text line = .ok p ↔
      1 ≤ line ∧ ∃ v items front i, read? text = some v ∧
        v.get? "sentenceList" = some (.array items) ∧ before? listKey text = some front ∧
        (listMarks items)[line - 1]? = some i ∧
        p = .lineStart (lineIndexAt text (byteLength front) + i + 1) := by
  refine ⟨of_locate_eq_ok, ?_⟩
  rintro ⟨hl, v, items, front, i, hread, hlist, hfront, hi, rfl⟩
  have hz : ¬line = 0 := by omega
  unfold listMarks at hi
  simp only [locate, hread, hlist, if_neg hz, hfront, hi]

theorem Lists.locate_zero {items : List Json} (h : Lists text items) :
    locate text 0 = .error (.lineOutOfRange 0) := by
  obtain ⟨⟨v, hread, hlist⟩, -⟩ := h
  simp only [locate, hread, hlist, if_pos]

theorem Lists.locate_found {items : List Json} (h : Lists text items) : ∃ base, ∀ line i, 1 ≤ line →
    (listMarks items)[line - 1]? = some i → locate text line = .ok (.lineStart (base + i + 1)) := by
  obtain ⟨⟨v, hread, hlist⟩, hkey⟩ := h
  obtain ⟨front, hfront⟩ := Option.isSome_iff_exists.mp (before?_isSome_iff.mpr hkey)
  exact ⟨lineIndexAt text (byteLength front), fun line i hl hi =>
    locate_eq_ok_iff.mpr ⟨hl, v, items, front, i, hread, hlist, hfront, hi, rfl⟩⟩

theorem Lists.locate_behind {items : List Json} (h : Lists text items) {line : Nat}
    (hl : (listMarks items).length < line) :
    locate text line = .error (.markerNotFound line (listMarks items).length) := by
  obtain ⟨⟨v, hread, hlist⟩, hkey⟩ := h
  obtain ⟨front, hfront⟩ := Option.isSome_iff_exists.mp (before?_isSome_iff.mpr hkey)
  have hz : ¬line = 0 := by omega
  have hnone : (listMarks items)[line - 1]? = none := List.getElem?_eq_none (by omega)
  unfold listMarks at hnone ⊢
  simp only [locate, hread, hlist, hfront, if_neg hz, hnone]

theorem Lists.locate_eq_ok_iff {items : List Json} (h : Lists text items) : ∃ base, ∀ line p,
    locate text line = .ok p ↔
      1 ≤ line ∧ ∃ i, (listMarks items)[line - 1]? = some i ∧ p = .lineStart (base + i + 1) := by
  obtain ⟨base, hfound⟩ := h.locate_found
  refine ⟨base, fun line p => ⟨fun hp => ?_, fun ⟨hl, i, hi, hp⟩ => hp ▸ hfound line i hl hi⟩⟩
  have hl : 1 ≤ line := (of_locate_eq_ok hp).1
  cases hi : (listMarks items)[line - 1]? with
  | some i =>
    rw [hfound line i hl hi] at hp
    exact ⟨hl, i, rfl, (Except.ok.inj hp).symm⟩
  | none =>
    have hle := List.getElem?_eq_none_iff.mp hi
    rw [h.locate_behind (by omega)] at hp
    simp at hp

theorem Lists.located_iff {items : List Json} (h : Lists text items) {line : Nat} :
    (∃ p, locate text line = .ok p) ↔ 1 ≤ line ∧ line ≤ (listMarks items).length := by
  obtain ⟨base, hok⟩ := h.locate_eq_ok_iff
  simp only [hok]
  constructor
  · rintro ⟨p, hl, i, hi, -⟩
    have hlt := (List.getElem?_eq_some_iff.mp hi).1
    omega
  · rintro ⟨hl, hle⟩
    have hlt : line - 1 < (listMarks items).length := by omega
    exact ⟨_, hl, _, List.getElem?_eq_getElem hlt, rfl⟩

theorem Lists.locate_lt {items : List Json} (h : Lists text items) {line line' : Nat}
    {p p' : Position} (hp : locate text line = .ok p) (hp' : locate text line' = .ok p')
    (hlt : line < line') : p.line < p'.line := by
  obtain ⟨base, hok⟩ := h.locate_eq_ok_iff
  obtain ⟨hl, i, hi, rfl⟩ := (hok line p).mp hp
  obtain ⟨-, j, hj, rfl⟩ := (hok line' p').mp hp'
  have hij : i < j := markedLines_lt hi hj (by omega)
  simp only [Position.lineStart]
  omega

theorem locate_column {line : Nat} {p : Position} (h : locate text line = .ok p) :
    p.column = 1 := by
  obtain ⟨-, v, items, front, i, -, -, -, -, rfl⟩ := of_locate_eq_ok h
  rfl

theorem Unlisted.locate_ne_ok {e : LocateError} (h : Unlisted text e) (line : Nat) (p : Position) :
    Correlation.locate text line ≠ .ok p := by
  intro hp
  rw [h.locate (of_locate_eq_ok hp).1] at hp
  simp at hp

/-- The lines of a script that have a place are the first ones, and their places descend through the
text line by line. Where the text has a list all lines behind them are refused with their number,
and line zero as no line; where it has none no line has a place, all for the same reason. -/
theorem locate_reaches (text : List Char) : ∃ k,
    (∀ line, (∃ p, locate text line = .ok p) ↔ 1 ≤ line ∧ line ≤ k) ∧
    (∀ line line' p p', locate text line = .ok p → locate text line' = .ok p' → line < line' →
      p.line < p'.line) ∧
    (∀ line p, locate text line = .ok p → p.column = 1) ∧
    ((∃ items, Lists text items) → locate text 0 = .error (.lineOutOfRange 0) ∧
      ∀ line, k < line → locate text line = .error (.markerNotFound line k)) ∧
    ((¬∃ items, Lists text items) → k = 0 ∧
      ∃ e, Unlisted text e ∧ ∀ line, 1 ≤ line → locate text line = .error e) := by
  obtain ⟨items, hlists⟩ | ⟨e, hunlisted⟩ := lists_or_unlisted text
  · exact ⟨(listMarks items).length, fun _ => hlists.located_iff, fun _ _ _ _ => hlists.locate_lt,
      fun _ _ => locate_column, fun _ => ⟨hlists.locate_zero, fun _ => hlists.locate_behind⟩,
      fun hnone => absurd ⟨items, hlists⟩ hnone⟩
  · have hnone := hunlisted.locate_ne_ok
    refine ⟨0, fun line => ?_, fun line _ p _ hp => absurd hp (hnone line p),
      fun _ _ => locate_column,
      fun ⟨items, hlists⟩ => absurd hlists (hunlisted.not_lists items),
      fun _ => ⟨rfl, e, hunlisted, fun line => hunlisted.locate⟩⟩
    constructor
    · rintro ⟨p, hp⟩
      exact absurd hp (hnone line p)
    · omega

def twiceListed : List Char :=
  "\x7b\"sentenceList\":3,\"sentenceList\":[\x7b\"commandRaw\":1\x7d,[\"commandRaw\"]]\x7d".toList

theorem locate_reaches_twiceListed :
    (∃ items, Lists twiceListed items) ∧
      ∀ line, 2 < line → locate twiceListed line = .error (.markerNotFound line 2) := by
  have htwo : locate twiceListed 2 = .ok (.lineStart 6) := by decide +kernel
  have hthree : locate twiceListed 3 = .error (.markerNotFound 3 2) := by decide +kernel
  obtain ⟨k, hfound, -, -, hlisted, hunlisted⟩ := locate_reaches twiceListed
  have hle : 2 ≤ k := ((hfound 2).mp ⟨_, htwo⟩).2
  have hlists : ∃ items, Lists twiceListed items := by
    by_contra hnone
    have hk := (hunlisted hnone).1
    omega
  obtain rfl : k = 2 := by
    have hlt : ¬3 ≤ k := fun hk => by
      obtain ⟨p, hp⟩ := (hfound 3).mpr ⟨by decide, hk⟩
      simp [hthree] at hp
    omega
  exact ⟨hlists, (hlisted hlists).2⟩

end SceneScript.Correlation
