import SceneScript.Proofs.Text.Trimming
import SceneScript.Script.Statement
import Mathlib.Data.List.Induction

namespace SceneScript.Script

open Text

def Uncut (target : Char) (s : List Char) : Prop :=
  ∀ r, cutUnescaped? target (s ++ r) = (cutUnescaped? target r).map fun p => (s ++ p.1, p.2)

theorem uncut_nil (target : Char) : Uncut target [] := by
  intro r
  simp

theorem Uncut.append {target : Char} {s t : List Char} (hs : Uncut target s)
    (ht : Uncut target t) : Uncut target (s ++ t) := by
  intro r
  rw [List.append_assoc, hs, ht, Option.map_map]
  simp [Function.comp_def]

theorem cutUnescaped?_cons {target c : Char} (hb : c ≠ '\\') (r : List Char) :
    cutUnescaped? target (c :: r) =
      if c = target then some ([], r)
      else (cutUnescaped? target r).map fun p => (c :: p.1, p.2) := by
  conv => lhs; unfold cutUnescaped?
  split <;> simp_all

theorem uncut_singleton {target c : Char} (hb : c ≠ '\\') (hc : c ≠ target) :
    Uncut target [c] := by
  intro r
  rw [List.singleton_append, cutUnescaped?_cons hb, if_neg hc]
  rfl

theorem uncut_escape (target c : Char) : Uncut target ['\\', c] :=
  fun _ => rfl

theorem uncut_of_forall {target : Char} {s : List Char} (h : ∀ c ∈ s, c ≠ '\\' ∧ c ≠ target) :
    Uncut target s := by
  induction s with
  | nil => exact uncut_nil target
  | cons c s ih =>
    obtain ⟨hb, hc⟩ := h c List.mem_cons_self
    exact (uncut_singleton hb hc).append (ih fun d hd => h d (List.mem_cons_of_mem c hd))

theorem Uncut.cutUnescaped?_eq_none {target : Char} {s : List Char} (h : Uncut target s) :
    cutUnescaped? target s = none := by
  simpa [cutUnescaped?] using h []

theorem unescape_cons {c : Char} (hb : c ≠ '\\') (s : List Char) :
    unescape (c :: s) = c :: unescape s := by
  conv => lhs; unfold unescape
  split <;> simp_all

def separators : List Char := [';', ':']

def escapeAt (marks s : List Char) : List Char :=
  s.flatMap fun c => if c ∈ marks then ['\\', c] else [c]

section

variable {marks : List Char}

theorem escapeAt_cons (c : Char) (s : List Char) :
    escapeAt marks (c :: s) = (if c ∈ marks then ['\\', c] else [c]) ++ escapeAt marks s :=
  rfl

theorem escapeAt_concat (s : List Char) (c : Char) :
    escapeAt marks (s ++ [c]) = escapeAt marks s ++ if c ∈ marks then ['\\', c] else [c] := by
  simp [escapeAt]

theorem escapeAt_eq_self {s : List Char} (h : ∀ c ∈ s, c ∉ marks) : escapeAt marks s = s := by
  induction s with
  | nil => rfl
  | cons c s ih =>
    rw [escapeAt_cons, if_neg (h c List.mem_cons_self), ih fun d hd => h d (List.mem_cons_of_mem c hd)]
    rfl

theorem mem_escapeAt {s : List Char} {c : Char} (h : c ∈ escapeAt marks s) : c ∈ s ∨ c = '\\' := by
  obtain ⟨d, hd, hc⟩ := List.mem_flatMap.mp h
  split at hc
  · rcases List.mem_cons.mp hc with rfl | hc
    · exact .inr rfl
    · exact .inl (List.mem_singleton.mp hc ▸ hd)
  · exact .inl (List.mem_singleton.mp hc ▸ hd)

theorem backslash_mem_escapeAt {s : List Char} {c : Char} (hc : c ∈ s) (hm : c ∈ marks) :
    '\\' ∈ escapeAt marks s :=
  List.mem_flatMap.mpr ⟨c, hc, by simp [hm]⟩

theorem escapeAt_ne_nil {s : List Char} (h : s ≠ []) : escapeAt marks s ≠ [] := by
  obtain ⟨c, s, rfl⟩ := List.exists_cons_of_ne_nil h
  rw [escapeAt_cons]
  split <;> simp

theorem uncut_escapeAt {target : Char} (ht : target ∈ marks) {s : List Char} (h : '\\' ∉ s) :
    Uncut target (escapeAt marks s) := by
  induction s with
  | nil => exact uncut_nil target
  | cons c s ih =>
    have hs := ih fun hs => h (List.mem_cons_of_mem c hs)
    have hb : c ≠ '\\' := fun hc => h (hc ▸ List.mem_cons_self)
    rw [escapeAt_cons]
    split
    · exact (uncut_escape target c).append hs
    · rename_i hc
      have hne : c ≠ target := fun he => hc (he ▸ ht)
      exact (uncut_singleton hb hne).append hs

variable (hm : marks ⊆ separators)

include hm

theorem unescape_escapeAt_append {s : List Char} (h : '\\' ∉ s) (rest : List Char) :
    unescape (escapeAt marks s ++ rest) = s ++ unescape rest := by
  induction s with
  | nil => rfl
  | cons c s ih =>
    have hs := ih fun hs => h (List.mem_cons_of_mem c hs)
    have hb : c ≠ '\\' := fun hc => h (hc ▸ List.mem_cons_self)
    rw [escapeAt_cons]
    split
    · rename_i hc
      have hseparator : c = ';' ∨ c = ':' := by simpa [separators] using hm hc
      rcases hseparator with rfl | rfl <;> simp [unescape, hs]
    · rw [List.singleton_append, List.cons_append, unescape_cons hb, hs, List.cons_append]

theorem isBlank_of_mem_marks {c : Char} (hc : c ∈ marks) : isBlank c = false := by
  have hall : separators.all (!isBlank ·) := by decide
  simpa using List.all_eq_true.mp hall c (hm hc)

theorem dropWhile_escapeAt (s : List Char) :
    (escapeAt marks s).dropWhile isBlank = escapeAt marks (s.dropWhile isBlank) := by
  induction s with
  | nil => rfl
  | cons c s ih =>
    by_cases hc : isBlank c
    · have hs : c ∉ marks := fun hmem => by simp [isBlank_of_mem_marks hm hmem] at hc
      rw [escapeAt_cons, if_neg hs, List.singleton_append, List.dropWhile_cons_of_pos hc,
        List.dropWhile_cons_of_pos hc, ih]
    · rw [List.dropWhile_cons_of_neg hc, escapeAt_cons]
      split
      · exact List.dropWhile_cons_of_neg (by decide)
      · exact List.dropWhile_cons_of_neg hc

theorem dropEndWhile_escapeAt (s : List Char) :
    dropEndWhile isBlank (escapeAt marks s) = escapeAt marks (dropEndWhile isBlank s) := by
  induction s using List.reverseRecOn with
  | nil => rfl
  | append_singleton s c ih =>
    rw [escapeAt_concat, dropEndWhile_concat]
    by_cases hs : c ∈ marks
    · have hb : isBlank c = false := isBlank_of_mem_marks hm hs
      have hsplit : escapeAt marks s ++ ['\\', c] = escapeAt marks s ++ ['\\'] ++ [c] := by simp
      rw [if_pos hs, hsplit, dropEndWhile_concat, hb]
      simp [escapeAt, hs]
    · rw [if_neg hs, dropEndWhile_concat, ih]
      split
      · rfl
      · rw [escapeAt_concat, if_neg hs]

theorem trim_escapeAt (s : List Char) : trim (escapeAt marks s) = escapeAt marks (trim s) := by
  rw [trim, dropWhile_escapeAt hm, dropEndWhile_escapeAt hm]
  rfl

end

theorem unescape_append {s : List Char} (h : '\\' ∉ s) (rest : List Char) :
    unescape (s ++ rest) = s ++ unescape rest := by
  have hu := unescape_escapeAt_append (List.nil_subset separators) h rest
  rwa [escapeAt_eq_self fun _ _ => List.not_mem_nil] at hu

theorem dropWhile_unescape (s : List Char) :
    (unescape s).dropWhile isBlank = unescape (s.dropWhile isBlank) := by
  induction s using unescape.induct with
  | case1 => rfl
  | case2 s ih => rfl
  | case3 s ih => rfl
  | case4 c s hsemicolon hcolon ih =>
    rw [unescape.eq_4 _ _ hsemicolon hcolon]
    by_cases hc : isBlank c
    · rw [List.dropWhile_cons_of_pos hc, List.dropWhile_cons_of_pos hc, ih]
    · rw [List.dropWhile_cons_of_neg hc, List.dropWhile_cons_of_neg hc,
        unescape.eq_4 _ _ hsemicolon hcolon]

theorem unescape_sublist (s : List Char) : (unescape s).Sublist s := by
  induction s using unescape.induct with
  | case1 => exact .slnil
  | case2 s ih => exact (ih.cons_cons ';').cons '\\'
  | case3 s ih => exact (ih.cons_cons ':').cons '\\'
  | case4 c s hsemicolon hcolon ih =>
    rw [unescape.eq_4 _ _ hsemicolon hcolon]
    exact ih.cons_cons c

def escapeSemicolons (s : List Char) : List Char :=
  s.flatMap fun c => if c = ';' then ['\\', ';'] else [c]

theorem escapeSemicolons_eq (s : List Char) : escapeSemicolons s = escapeAt [';'] s := by
  rw [escapeSemicolons, escapeAt]
  congr 1
  funext c
  by_cases hc : c = ';' <;> simp [hc]

theorem escapeSemicolons_cons (c : Char) (s : List Char) :
    escapeSemicolons (c :: s) = (if c = ';' then ['\\', ';'] else [c]) ++ escapeSemicolons s :=
  rfl

theorem escapeSemicolons_eq_self {s : List Char} (h : ';' ∉ s) : escapeSemicolons s = s := by
  rw [escapeSemicolons_eq]
  apply escapeAt_eq_self
  rintro c hc hsemicolon
  exact h (List.mem_singleton.mp hsemicolon ▸ hc)

theorem mem_escapeSemicolons {s : List Char} {c : Char} (h : c ∈ escapeSemicolons s) :
    c ∈ s ∨ c = '\\' :=
  mem_escapeAt (escapeSemicolons_eq s ▸ h)

theorem unescape_escapeSemicolons {s : List Char} (h : '\\' ∉ s) :
    unescape (escapeSemicolons s) = s := by
  have hu := unescape_escapeAt_append (show [';'] ⊆ separators by decide) h []
  rwa [List.append_nil, unescape, List.append_nil, ← escapeSemicolons_eq] at hu

theorem uncut_escapeSemicolons {s : List Char} (h : '\\' ∉ s) :
    Uncut ';' (escapeSemicolons s) := by
  rw [escapeSemicolons_eq]
  exact uncut_escapeAt List.mem_cons_self h

theorem trim_escapeSemicolons (s : List Char) :
    trim (escapeSemicolons s) = escapeSemicolons (trim s) := by
  rw [escapeSemicolons_eq, escapeSemicolons_eq, trim_escapeAt (by decide)]

theorem cut?_escapeSemicolons {target : Char} (ht : target ≠ ';' ∧ target ≠ '\\')
    (s : List Char) :
    cut? target (escapeSemicolons s) =
      (cut? target s).map fun p => (escapeSemicolons p.1, escapeSemicolons p.2) := by
  induction s with
  | nil => rfl
  | cons c s ih =>
    rw [escapeSemicolons_cons]
    by_cases hs : c = ';'
    · subst hs
      simp [cut?, ht.1.symm, ht.2.symm, ih, Function.comp_def, escapeSemicolons_cons]
    · rw [if_neg hs, List.singleton_append, cut?, cut?]
      split
      · rfl
      · simp [ih, Function.comp_def, escapeSemicolons_cons, hs]

theorem splitDash_ne_nil (s : List Char) : splitDash s ≠ [] := by
  induction s using splitDash.induct with
  | case1 => simp [splitDash]
  | case2 s ih => simp [splitDash]
  | case3 c s h ih =>
    rw [splitDash]
    · obtain ⟨first, rest, hs⟩ := List.exists_cons_of_ne_nil ih
      simp [hs]
    · exact h

theorem splitDash_append (s t : List Char) :
    splitDash (s ++ ' ' :: '-' :: t) = splitDash s ++ splitDash t := by
  induction s using splitDash.induct with
  | case1 => rfl
  | case2 s ih => simp [splitDash, ih]
  | case3 c s h ih =>
    have hs : ∀ r, c = ' ' → s ++ ' ' :: '-' :: t = '-' :: r → False := by
      intro r hc hr
      cases s with
      | nil => simp at hr
      | cons d s =>
        obtain ⟨rfl, -⟩ := List.cons.inj hr
        exact h s hc rfl
    obtain ⟨first, rest, hr⟩ := List.exists_cons_of_ne_nil (splitDash_ne_nil s)
    rw [List.cons_append, splitDash, ih, splitDash, hr]
    · rfl
    · exact h
    · exact hs

def dashed (segment : List Char) : List Char :=
  ' ' :: '-' :: segment

theorem splitDash_append_dashed (s : List Char) {segments : List (List Char)}
    (h : ∀ x ∈ segments, splitDash x = [x]) :
    splitDash (s ++ segments.flatMap dashed) = splitDash s ++ segments := by
  induction segments generalizing s with
  | nil => simp
  | cons x segments ih =>
    have hx : splitDash x = [x] := h x List.mem_cons_self
    have hi := ih x fun y hy => h y (List.mem_cons_of_mem x hy)
    rw [List.flatMap_cons, dashed, List.cons_append, List.cons_append, splitDash_append, hi, hx]
    rfl

theorem splitDash_of_not_infix {s : List Char} (h : ¬[' ', '-'] <:+: s) : splitDash s = [s] := by
  induction s using splitDash.induct with
  | case1 => rfl
  | case2 s ih => exact absurd ⟨[], s, rfl⟩ h
  | case3 c s hc ih =>
    have hs : ¬[' ', '-'] <:+: s := fun hs => h (hs.trans (List.suffix_cons c s).isInfix)
    rw [splitDash, ih hs]
    · rfl
    · exact hc

theorem splitDash_append_of_not_mem {s : List Char} (h : ' ' ∉ s) (t : List Char) :
    splitDash (s ++ t) = (splitDash t).modifyHead (s ++ ·) := by
  induction s with
  | nil =>
    obtain ⟨first, rest, ht⟩ := List.exists_cons_of_ne_nil (splitDash_ne_nil t)
    simp [ht]
  | cons c s ih =>
    have hc : c ≠ ' ' := fun hc => h (hc ▸ List.mem_cons_self)
    obtain ⟨first, rest, ht⟩ := List.exists_cons_of_ne_nil (splitDash_ne_nil t)
    rw [List.cons_append, splitDash, ih fun hs => h (List.mem_cons_of_mem c hs), ht]
    · rfl
    · exact fun _ hs => absurd hs hc

theorem append_flatMap_dashed {s first : List Char} {segments : List (List Char)}
    (h : splitDash s = first :: segments) : first ++ segments.flatMap dashed = s := by
  induction s using splitDash.induct generalizing first segments with
  | case1 =>
    obtain ⟨rfl, rfl⟩ := List.cons.inj h
    rfl
  | case2 s ih =>
    obtain ⟨rfl, hs⟩ := List.cons.inj (splitDash.eq_2 s ▸ h)
    obtain ⟨second, rest, hr⟩ := List.exists_cons_of_ne_nil (splitDash_ne_nil s)
    rw [hr] at hs
    subst hs
    simpa [dashed] using ih hr
  | case3 c s hc ih =>
    obtain ⟨second, rest, hr⟩ := List.exists_cons_of_ne_nil (splitDash_ne_nil s)
    rw [splitDash, hr, List.modifyHead_cons] at h
    · obtain ⟨rfl, rfl⟩ := List.cons.inj h
      simpa using ih hr
    · exact hc

theorem splitDash_escapeSemicolons (s : List Char) :
    splitDash (escapeSemicolons s) = (splitDash s).map escapeSemicolons := by
  induction s using splitDash.induct with
  | case1 => rfl
  | case2 s ih =>
    rw [splitDash, List.map_cons, ← ih]
    simp [escapeSemicolons, splitDash]
  | case3 c s hc ih =>
    obtain ⟨first, rest, hr⟩ := List.exists_cons_of_ne_nil (splitDash_ne_nil s)
    have hsplit : splitDash (c :: s) = (splitDash s).modifyHead (c :: ·) := by
      rw [splitDash]
      exact hc
    rw [hsplit, hr, List.modifyHead_cons, List.map_cons, escapeSemicolons_cons,
      escapeSemicolons_cons]
    by_cases hs : c = ';'
    · subst hs
      simp [splitDash, ih, hr]
    · rw [if_neg hs, List.singleton_append, splitDash, ih, hr]
      · rfl
      · intro r hcs hd
        cases s with
        | nil => simp [escapeSemicolons] at hd
        | cons d s =>
          rw [escapeSemicolons_cons] at hd
          split at hd
          · simp at hd
          · obtain ⟨rfl, -⟩ := List.cons.inj hd
            exact hc s hcs rfl

theorem splitArgs_eq {s first : List Char} {others segments : List (List Char)}
    (hs : splitDash s = first :: others) (ho : ∀ x ∈ others, arg? x = none)
    (hd : ∀ x ∈ segments, splitDash x = [x]) (ha : ∀ x ∈ segments, (arg? x).isSome) :
    splitArgs (s ++ segments.flatMap dashed) = (unescape (trim s), segments.filterMap arg?) := by
  have hsplit := splitDash_append_dashed s hd
  rw [hs, List.cons_append] at hsplit
  have hkept : others.flatMap kept = others.flatMap dashed := by
    rw [List.flatMap_def, List.flatMap_def]
    congr 1
    apply List.map_congr_left
    intro x hx
    simp [kept, ho x hx, dashed]
  have hdropped : segments.flatMap kept = [] := by
    rw [List.flatMap_eq_nil_iff]
    intro x hx
    simp [kept, ha x hx]
  have hnone : others.filterMap arg? = [] := List.filterMap_eq_nil_iff.mpr ho
  simp only [splitArgs, hsplit, List.flatMap_append, hkept, hdropped, List.append_nil,
    append_flatMap_dashed hs, List.filterMap_append, hnone, List.nil_append]

def isKeyCharacter (c : Char) : Bool :=
  c.isAlphanum || c == '_' || c == '.'

theorem isKeyCharacter_of_mem {s : List Char} (h : isKey s) {c : Char} (hc : c ∈ s) :
    isKeyCharacter c := by
  cases s with
  | nil => simp at hc
  | cons d s =>
    simp only [isKey, Bool.and_eq_true, List.all_eq_true] at h
    rcases List.mem_cons.mp hc with rfl | hc
    · have hd := h.1
      simp only [Bool.or_eq_true] at hd
      rcases hd with hd | hd <;> simp [isKeyCharacter, Char.isAlphanum, hd]
    · exact h.2 c hc

theorem isBlank_of_isKeyCharacter {c : Char} (h : isKeyCharacter c) : isBlank c = false := by
  have hn : 46 ≤ c.toNat ∧ c.toNat ≤ 122 := by
    delta isKeyCharacter Char.isAlphanum Char.isAlpha Char.isUpper Char.isLower Char.isDigit at h
    simp only [Bool.or_eq_true, Bool.and_eq_true, decide_eq_true_eq, beq_iff_eq,
      UInt32.le_iff_toNat_le] at h
    rcases h with ((h | h) | rfl) | rfl
    · change 65 ≤ c.toNat ∧ c.toNat ≤ 90 ∨ 97 ≤ c.toNat ∧ c.toNat ≤ 122 at h
      omega
    · change 48 ≤ c.toNat ∧ c.toNat ≤ 57 at h
      omega
    · decide
    · decide
  have hb : ∀ n < 123, 46 ≤ n → isBlank (Char.ofNat n) = false := by decide
  have hc := hb c.toNat (by omega) hn.1
  rwa [Char.ofNat_toNat] at hc

theorem cut?_append {target : Char} {s : List Char} (h : target ∉ s) (t : List Char) :
    cut? target (s ++ target :: t) = some (s, t) := by
  induction s with
  | nil => simp [cut?]
  | cons c s ih =>
    have hc : c ≠ target := fun hc => h (hc ▸ List.mem_cons_self)
    rw [List.cons_append, cut?, if_neg hc, ih fun hs => h (List.mem_cons_of_mem c hs)]
    rfl

theorem cut?_eq_none {target : Char} {s : List Char} (h : target ∉ s) : cut? target s = none := by
  induction s with
  | nil => rfl
  | cons c s ih =>
    have hc : c ≠ target := fun hc => h (hc ▸ List.mem_cons_self)
    rw [cut?, if_neg hc, ih fun hs => h (List.mem_cons_of_mem c hs)]
    rfl

theorem bne_of_not_mem {c : Char} {s : List Char} (h : c ∉ s) : ∀ d ∈ s, (d != c) = true := by
  intro d hd
  simpa using fun he : d = c => h (he ▸ hd)

theorem takeWhile_bne_append {c : Char} {s : List Char} (h : c ∉ s) (t : List Char) :
    (s ++ c :: t).takeWhile (· != c) = s := by
  rw [List.takeWhile_append_of_pos (bne_of_not_mem h)]
  simp

theorem dropWhile_bne_append {c : Char} {s : List Char} (h : c ∉ s) (t : List Char) :
    (s ++ c :: t).dropWhile (· != c) = c :: t := by
  rw [List.dropWhile_append_of_pos (bne_of_not_mem h)]
  simp

theorem cut?_eq_some {c : Char} {s : List Char} (h : c ∈ s) :
    cut? c s = some (s.takeWhile (· != c), (s.dropWhile (· != c)).tail) := by
  obtain ⟨front, back, rfl, hfront⟩ := List.eq_append_cons_of_mem h
  rw [cut?_append hfront, takeWhile_bne_append hfront, dropWhile_bne_append hfront, List.tail_cons]

theorem isKey_escapeSemicolons (s : List Char) : isKey (escapeSemicolons s) = isKey s := by
  by_cases hs : ';' ∈ s
  · have hsemi : isKeyCharacter ';' = false := by decide
    have hslash : isKeyCharacter '\\' = false := by decide
    have hmem : '\\' ∈ escapeSemicolons s := List.mem_flatMap.mpr ⟨';', hs, by simp⟩
    have h₁ : isKey s = false := by
      rw [← Bool.not_eq_true]
      intro h
      simp [isKeyCharacter_of_mem h hs] at hsemi
    have h₂ : isKey (escapeSemicolons s) = false := by
      rw [← Bool.not_eq_true]
      intro h
      simp [isKeyCharacter_of_mem h hmem] at hslash
    rw [h₁, h₂]
  · rw [escapeSemicolons_eq_self hs]

theorem arg?_escapeSemicolons_isSome (segment : List Char) :
    (arg? (escapeSemicolons segment)).isSome = (arg? segment).isSome := by
  have ht : '=' ≠ ';' ∧ '=' ≠ '\\' := by decide
  simp only [arg?, trim_escapeSemicolons, cut?_escapeSemicolons ht]
  cases cut? '=' (trim segment) with
  | none =>
    simp only [Option.map_none, isKey_escapeSemicolons]
    split <;> rfl
  | some p =>
    simp only [Option.map_some, trim_escapeSemicolons, isKey_escapeSemicolons]
    split <;> rfl

end SceneScript.Script
