import Mathlib.Algebra.Ring.Nat
import SceneScript.Proofs.Yaml.Gap

namespace SceneScript.Yaml

/-- A reader of runs reads what is written for the texts of a kind: all of it up to the closing
quote, or a run in front of a gap, behind which a shorter such text is written. -/
def ReadsRuns (run? : List Char → Option (List Char × RunEnd × List Char))
    (written : List Char → List Char) (kind : List Char → Prop) (close : List Char) : Prop :=
  ∀ v, kind v → run? (written v) = some (v, .closed, close) ∨
    ∃ word gap more rest, v = word ++ (gap.text ++ more) ∧ gap.text ≠ [] ∧ kind more ∧
      run? (written v) = some (word, .gap, rest) ∧
      ∀ column line, column ≠ 0 → ∃ place : Cursor,
        (⟨rest, column, line⟩ : Cursor).gap? 0 = some (gap, place) ∧
        place.rest = written more ∧ place.column ≠ 0

theorem quotedTail?_eq {run? : List Char → Option (List Char × RunEnd × List Char)}
    {written : List Char → List Char} {kind : List Char → Prop} {close : List Char}
    (h : ReadsRuns run? written kind close) {fuel : Nat} {v : List Char} (hv : kind v)
    (hf : v.length < fuel) {c : Cursor} (hc : c.column ≠ 0) (hrest : c.rest = written v) :
    ∃ place, quotedTail? run? fuel c = some (v, place) ∧ place.rest = close := by
  -- Every gap takes a character off the text, so the fuel lasts.
  induction fuel generalizing v c with
  | zero => omega
  | succ fuel ih =>
    have hmark := atDocumentMark_eq_false hc
    rcases h v hv with hclosed | ⟨word, gap, more, rest, rfl, hgap, hmore, hrun, hplace⟩
    · exact ⟨c.moved close, by simp [quotedTail?, hmark, hrest, hclosed], rfl⟩
    · obtain ⟨place, hread, hwritten, hcolumn⟩ :=
        hplace (c.column + (c.rest.length - rest.length)) c.line (by omega)
      have hlength : more.length < fuel := by
        have hpos := List.length_pos_iff.mpr hgap
        simp only [List.length_append] at hf
        omega
      obtain ⟨last, hlast, hclose⟩ := ih hmore hlength hcolumn hwritten
      refine ⟨last, ?_, hclose⟩
      have hmoved : (c.moved rest).gap? 0 = some (gap, place) := hread
      rw [← hrest] at hrun
      simp [quotedTail?, hmark, hrun, hmoved, hlast]

def quoteOf (single : Bool) : Char :=
  if single then '\'' else '"'

def quotedStyle (single : Bool) : Style :=
  if single then .singleQuoted else .doubleQuoted

section Single

def singleWritten (v : List Char) : List Char :=
  singleBody false v ++ ['\'', '\n']

theorem singleBody_append {word s : List Char} (h : ∀ c ∈ word, isBreak c = false) :
    singleBody false (word ++ s) = singleBody false word ++ singleBody false s := by
  induction word with
  | nil => rfl
  | cons c word ih =>
    have hc := h c List.mem_cons_self
    have hi := ih fun d hd => h d (List.mem_cons_of_mem c hd)
    simp [singleBody, hc, hi]

theorem singleRun?_append {word r : List Char} (h : ∀ c ∈ word, isGap c = false) :
    singleRun? (singleBody false word ++ r) =
      (singleRun? r).map fun p => (word ++ p.1, p.2) := by
  induction word with
  | nil => simp [singleBody]
  | cons c word ih =>
    have hc := h c List.mem_cons_self
    have hb := (isGap_eq_false.mp hc).2
    have hi := ih fun d hd => h d (List.mem_cons_of_mem c hd)
    by_cases hquote : c = '\''
    · subst hquote
      simp [singleBody, singleRun?, hb, hi, Function.comp_def]
    · simp [singleBody, singleRun?, hb, hc, hquote, hi, Function.comp_def]

theorem hasNeighbours_append {p q : Char → Bool} {s t : List Char}
    (h : hasNeighbours p q (s ++ t) = false) : hasNeighbours p q t = false := by
  induction s with
  | nil => exact h
  | cons c s ih =>
    apply ih
    cases hst : s ++ t with
    | nil => rfl
    | cons d ds =>
      rw [List.cons_append, hst, hasNeighbours, Bool.or_eq_false_iff] at h
      exact h.2

/-- No gap of the text has both line breaks and blanks, its blanks are spaces, and its line breaks
are not newlines. -/
structure Unfolded (v : List Char) : Prop where
  spaceBreak : hasSpaceBreak v = false
  breakSpace : hasBreakSpace v = false
  blanks : ∀ c ∈ v, isSpace c → c = ' '
  newline : '\n' ∉ v

theorem Unfolded.append {s t : List Char} (h : Unfolded (s ++ t)) : Unfolded t where
  spaceBreak := hasNeighbours_append h.spaceBreak
  breakSpace := hasNeighbours_append h.breakSpace
  blanks := fun c hc => h.blanks c (List.mem_append_right s hc)
  newline := fun hc => h.newline (List.mem_append_right s hc)

theorem Unfolded.afterSpace {d : Char} {t : List Char} (h : Unfolded (' ' :: d :: t)) :
    isBreak d = false := by
  have hs := h.spaceBreak
  simp only [hasSpaceBreak, hasNeighbours, Bool.or_eq_false_iff] at hs
  simpa using hs.1

theorem Unfolded.afterBreak {b d : Char} {t : List Char} (h : Unfolded (b :: d :: t))
    (hb : isBreak b) : isSpace d = false := by
  have hs := h.breakSpace
  simp only [hasBreakSpace, hasNeighbours, Bool.or_eq_false_iff, hb, Bool.true_and] at hs
  cases hd : isSpace d with
  | false => rfl
  | true =>
    have hspace := h.blanks d (by simp) hd
    simp [hspace] at hs

theorem Unfolded.spaces {g : Char} {rest : List Char} (h : Unfolded (g :: rest))
    (hg : isSpace g) :
    ∃ sp more, g :: rest = sp ++ more ∧ sp ≠ [] ∧ (∀ c ∈ sp, c = ' ') ∧ StartsWord more := by
  obtain ⟨front, last, more, hrest, hsp, hmore⟩ := exists_run_cons hg rest
  rw [hrest] at h
  have hspaces : ∀ c ∈ front ++ [last], c = ' ' := fun c hc =>
    h.blanks c (List.mem_append_left more hc) (hsp c hc)
  refine ⟨front ++ [last], more, hrest, by simp, hspaces, fun c hc => ?_⟩
  obtain ⟨ds, rfl⟩ : ∃ ds, more = c :: ds := List.head?_eq_some_iff.mp hc
  have htail : Unfolded (' ' :: c :: ds) := by
    rw [hspaces last (by simp)] at h
    exact Unfolded.append (s := front) (by simpa using h)
  exact isGap_eq_false.mpr ⟨hmore c rfl, htail.afterSpace⟩

theorem Unfolded.breaks {g : Char} {rest : List Char} (h : Unfolded (g :: rest))
    (hg : isBreak g) :
    ∃ bs more, g :: rest = bs ++ more ∧ bs ≠ [] ∧ (∀ c ∈ bs, isBreak c ∧ c ≠ '\n') ∧
      StartsWord more := by
  obtain ⟨front, last, more, hrest, hbs, hmore⟩ := exists_run_cons hg rest
  rw [hrest] at h
  have hnewline : ∀ c ∈ front ++ [last], isBreak c ∧ c ≠ '\n' := by
    intro c hc
    refine ⟨hbs c hc, ?_⟩
    rintro rfl
    exact h.newline (List.mem_append_left more hc)
  refine ⟨front ++ [last], more, hrest, by simp, hnewline, fun c hc => ?_⟩
  obtain ⟨ds, rfl⟩ : ∃ ds, more = c :: ds := List.head?_eq_some_iff.mp hc
  have htail : Unfolded (last :: c :: ds) := Unfolded.append (s := front) (by simpa using h)
  exact isGap_eq_false.mpr ⟨htail.afterBreak (hbs last (by simp)), hmore c rfl⟩

theorem foldBreaks_eq {bs : List Char} (h : ∀ c ∈ bs, c ≠ '\n') : foldBreaks bs = bs := by
  cases bs with
  | nil => rfl
  | cons b bs => simp [foldBreaks, h b List.mem_cons_self]

theorem startsWord_singleWritten {v : List Char} (h : StartsWord v) :
    StartsWord (singleWritten v) := by
  cases v with
  | nil => simp [StartsWord, singleWritten, singleBody]; decide
  | cons c v =>
    have hc := h c rfl
    have hb := (isGap_eq_false.mp hc).2
    by_cases hquote : c = '\''
    · subst hquote
      simpa [StartsWord, singleWritten, singleBody, hb] using hc
    · simp [StartsWord, singleWritten, singleBody, hb, hquote, hc]

theorem singleBody_breaks {bs more : List Char} (hbs : ∀ c ∈ bs, isBreak c ∧ c ≠ '\n')
    (hne : bs ≠ []) (hmore : StartsWord more) (broken : Bool) :
    singleBody broken (bs ++ more) = bs ++ (margin ++ singleBody false more) := by
  induction bs generalizing broken with
  | nil => exact absurd rfl hne
  | cons b bs ih =>
    obtain ⟨hb, hnewline⟩ := hbs b List.mem_cons_self
    have htail : singleBody true (bs ++ more) = bs ++ (margin ++ singleBody false more) := by
      cases bs with
      | nil =>
        cases more with
        | nil => simp [singleBody]
        | cons c more =>
          have hc := isGap_eq_false.mp (hmore c rfl)
          simp [singleBody, hc.2]
      | cons d ds =>
        apply ih (fun c hc => hbs c (List.mem_cons_of_mem b hc))
        exact List.cons_ne_nil d ds
    simp [singleBody, hb, hnewline, htail]

theorem singleBody_spaces {sp : List Char} (h : ∀ c ∈ sp, c = ' ') : singleBody false sp = sp := by
  induction sp with
  | nil => rfl
  | cons c sp ih =>
    have hi := ih fun d hd => h d (List.mem_cons_of_mem c hd)
    rw [h c List.mem_cons_self]
    simpa [singleBody, isBreak] using hi

theorem singleRun?_gap {gap s : List Char} (h : ∀ c ∈ gap, isGap c) (hne : gap ≠ []) :
    singleRun? (gap ++ s) = some ([], .gap, gap ++ s) := by
  obtain ⟨c, cs, rfl⟩ := List.exists_cons_of_ne_nil hne
  have hc := h c List.mem_cons_self
  have hquote : c ≠ '\'' := by
    rintro rfl
    simp [isGap, isSpace, isBreak] at hc
  simp [singleRun?, hc, hquote]

theorem readsRuns_single : ReadsRuns singleRun? singleWritten Unfolded ['\n'] := by
  intro v hv
  obtain ⟨word, rest, rfl, hword, hrest⟩ := exists_run (!isGap ·) v
  replace hword : ∀ c ∈ word, isGap c = false := fun c hc => by simpa using hword c hc
  have hbreak : ∀ c ∈ word, isBreak c = false := fun c hc => (isGap_eq_false.mp (hword c hc)).2
  have hwritten : singleWritten (word ++ rest) = singleBody false word ++ singleWritten rest := by
    simp [singleWritten, singleBody_append hbreak]
  rw [hwritten, singleRun?_append hword]
  cases rest with
  | nil => exact .inl (by simp [singleWritten, singleBody, singleRun?])
  | cons g rest =>
    have hg : isGap g := by simpa using hrest g rfl
    right
    have htail : Unfolded (g :: rest) := hv.append
    by_cases hb : isBreak g
    · obtain ⟨bs, more, hbs, hne, hall, hmore⟩ := htail.breaks hb
      have htext : (⟨[], bs⟩ : Gap).text = bs := by
        simp [Gap.text, foldBreaks_eq fun c hc => (hall c hc).2]
      have hwritten : singleWritten (g :: rest) = bs ++ (margin ++ singleWritten more) := by
        simp [singleWritten, hbs, singleBody_breaks hall hne hmore]
      have hgaps : ∀ c ∈ bs, isGap c := fun c hc => by simp [isGap, (hall c hc).1]
      have hmargin : ∀ c ∈ margin, c = ' ' := by simp [margin]
      refine ⟨word, ⟨[], bs⟩, more, bs ++ (margin ++ singleWritten more), by rw [htext, hbs],
        by rwa [htext], (hbs ▸ htail).append, by simp [hwritten, singleRun?_gap hgaps hne], ?_⟩
      intro column line _
      refine ⟨⟨singleWritten more, 2, line + bs.length⟩, ?_, rfl, by simp⟩
      exact gap?_breaks (fun c hc => (hall c hc).1) hne hmargin (startsWord_singleWritten hmore)
        0 column line
    · obtain ⟨sp, more, hsp, hne, hall, hmore⟩ := htail.spaces (by simpa [isGap, hb] using hg)
      have hwritten : singleWritten (g :: rest) = sp ++ singleWritten more := by
        have hline : ∀ c ∈ sp, isBreak c = false := fun c hc => by rw [hall c hc]; rfl
        simp [singleWritten, hsp, singleBody_append hline, singleBody_spaces hall]
      have hgaps : ∀ c ∈ sp, isGap c := fun c hc => by rw [hall c hc]; rfl
      refine ⟨word, ⟨sp, []⟩, more, sp ++ singleWritten more, by rw [hsp]; rfl, hne,
        (hsp ▸ htail).append, by simp [hwritten, singleRun?_gap hgaps hne], ?_⟩
      intro column line hcolumn
      refine ⟨⟨singleWritten more, column + sp.length, line⟩, ?_, rfl, by simp [hcolumn]⟩
      exact gap?_spaces hall (startsWord_singleWritten hmore) 0 column line

theorem unfolded_of_allowsSingle {v : List Char} (h : allowsSingle v) (hn : '\n' ∉ v) :
    Unfolded v := by
  simp only [allowsSingle, Bool.not_eq_true', Bool.or_eq_false_iff] at h
  obtain ⟨⟨hbreakSpace, hspaceBreak⟩, hspecial⟩ := h
  refine ⟨hspaceBreak, hbreakSpace, fun c hc hs => ?_, hn⟩
  exact eq_space_of_isSpace hs (isPrintable_of_not_hasSpecial hspecial c hc)

theorem length_le_singleBody (broken : Bool) (v : List Char) :
    v.length ≤ (singleBody broken v).length := by
  induction v generalizing broken with
  | nil => exact Nat.zero_le _
  | cons c v ih =>
    have ht := ih true
    have hf := ih false
    have hquote : 1 ≤ (if c == '\'' then ['\'', '\''] else [c]).length := by
      split <;> simp
    unfold singleBody
    split <;> simp only [List.length_append, List.length_cons] <;> omega

theorem quoted?_single {v : List Char} (h : allowsSingle v) (hn : '\n' ∉ v) {c : Cursor}
    (hc : c.column ≠ 0) (hrest : c.rest = singleWritten v) :
    ∃ place, quoted? true c = some (v, place) ∧ place.rest = ['\n'] := by
  have hf : v.length < c.rest.length + 1 := by
    have hle := length_le_singleBody false v
    rw [hrest, singleWritten, List.length_append]
    omega
  exact quotedTail?_eq readsRuns_single (unfolded_of_allowsSingle h hn) hf hc hrest

end Single

section Double

def doubleWritten (v : List Char) : List Char :=
  v.flatMap doubleBody ++ ['"', '\n']

theorem hexValue?_upper : ∀ d < 16,
    Text.hexValue? (Char.ofNat (if d < 10 then 48 + d else 55 + d)) = some d := by
  decide

theorem doubleRun?_upperHex (width left value n : Nat) (r : List Char) :
    doubleRun? (.code (left + width) value) (upperHex width n ++ r) =
      doubleRun? (.code left (value * 16 ^ width + n % 16 ^ width)) r := by
  -- The last digit is written behind the others, which are read with one more digit to come.
  induction width generalizing left n r with
  | zero => simp [upperHex, Nat.mod_one]
  | succ width ih =>
    have hd := hexValue?_upper (n % 16) (Nat.mod_lt n (by omega))
    have hvalue : (value * 16 ^ width + n / 16 % 16 ^ width) * 16 + n % 16 =
        value * 16 ^ (width + 1) + n % 16 ^ (width + 1) := by
      rw [Nat.pow_succ, Nat.mul_comm (16 ^ width) 16, Nat.mod_mul, Nat.mul_left_comm]
      omega
    have hleft : left + (width + 1) = left + 1 + width := by omega
    rw [upperHex, List.append_assoc, List.singleton_append, hleft, ih]
    simp only [doubleRun?, hd, Option.bind_eq_bind, Option.bind_some, hvalue]

theorem doubleRun?_code {c : Char} {width : Nat} (hc : c.toNat < 16 ^ (width + 1))
    (r : List Char) :
    doubleRun? (.code width 0) (upperHex (width + 1) c.toNat ++ r) =
      (doubleRun? .text r).map fun p => (c :: p.1, p.2) := by
  have hd := hexValue?_upper (c.toNat % 16) (Nat.mod_lt _ (by omega))
  have hfront : c.toNat / 16 % 16 ^ width = c.toNat / 16 := by
    apply Nat.mod_eq_of_lt
    apply Nat.div_lt_of_lt_mul
    rwa [Nat.mul_comm, ← Nat.pow_succ]
  have hvalue : c.toNat / 16 * 16 + c.toNat % 16 = c.toNat := by omega
  have hchar : character? c.toNat = some c := by
    have hvalid : c.toNat.isValidChar := c.valid
    simp [character?, hvalid]
  have hread := doubleRun?_upperHex width 0 0 (c.toNat / 16)
  simp only [Nat.zero_add, Nat.zero_mul, hfront] at hread
  rw [upperHex, List.append_assoc, List.singleton_append, hread]
  simp only [doubleRun?, hd, Option.bind_eq_bind, Option.bind_some, hvalue, hchar]
  cases doubleRun? .text r <;> rfl

theorem doubleRun?_letter {letter c : Char} (hbreak : isBreak letter = false)
    (hlength : codeLength? letter = none) (hescaped : escaped? letter = some c) (r : List Char) :
    doubleRun? .escape (letter :: r) = (doubleRun? .text r).map fun p => (c :: p.1, p.2) := by
  simp only [doubleRun?, hbreak, hlength, hescaped, Option.bind_eq_bind, Option.bind_some]
  cases doubleRun? .text r <;> rfl

theorem doubleRun?_number {letter c : Char} {width : Nat} (hbreak : isBreak letter = false)
    (hlength : codeLength? letter = some (width + 1)) (hc : c.toNat < 16 ^ (width + 1))
    (r : List Char) :
    doubleRun? .escape (letter :: (upperHex (width + 1) c.toNat ++ r)) =
      (doubleRun? .text r).map fun p => (c :: p.1, p.2) := by
  rw [← doubleRun?_code hc r]
  simp [doubleRun?, hbreak, hlength]

theorem doubleRun?_escapeCode (c : Char) (r : List Char) :
    doubleRun? .escape (escapeCode c ++ r) =
      (doubleRun? .text r).map fun p => (c :: p.1, p.2) := by
  unfold escapeCode
  split
  iterate 14 exact doubleRun?_letter rfl rfl rfl r
  have hc : c.toNat < 16 ^ 8 := by
    have hvalid : c.toNat.isValidChar := c.valid
    simp only [Nat.isValidChar] at hvalid
    omega
  dsimp only
  split
  · exact doubleRun?_number rfl rfl (by omega) r
  · split
    · exact doubleRun?_number rfl rfl (by omega) r
    · exact doubleRun?_number rfl rfl hc r

theorem isGap_of_literal {c : Char} (hc : c ≠ ' ') (hprintable : isPrintable c)
    (hbreak : isBreak c = false) : isGap c = false := by
  refine isGap_eq_false.mpr ⟨?_, hbreak⟩
  cases hs : isSpace c with
  | false => rfl
  | true => exact absurd (eq_space_of_isSpace hs hprintable) hc

theorem doubleRun?_doubleBody {c : Char} (hc : c ≠ ' ') (r : List Char) :
    doubleRun? .text (doubleBody c ++ r) =
      (doubleRun? .text r).map fun p => (c :: p.1, p.2) := by
  unfold doubleBody
  split
  · have hbackslash : isGap '\\' = false := rfl
    simp [doubleRun?, hbackslash, doubleRun?_escapeCode]
  · rename_i hplain
    simp only [Bool.or_eq_true, Bool.not_eq_true', not_or, Bool.not_eq_true, Bool.not_eq_false,
      beq_iff_eq] at hplain
    obtain ⟨⟨⟨hprintable, hbreak⟩, hquote⟩, hslash⟩ := hplain
    simp [doubleRun?, hquote, hslash, isGap_of_literal hc hprintable hbreak]

theorem startsWord_doubleWritten {v : List Char} (h : ∀ c ∈ v.head?, c ≠ ' ') :
    StartsWord (doubleWritten v) := by
  cases v with
  | nil => simp [StartsWord, doubleWritten, isGap, isSpace, isBreak]
  | cons c v =>
    have hc : c ≠ ' ' := h c rfl
    intro d hd
    simp only [doubleWritten, List.flatMap_cons, doubleBody] at hd
    split at hd
    · obtain rfl : '\\' = d := by simpa using hd
      rfl
    · rename_i hplain
      simp only [Bool.or_eq_true, Bool.not_eq_true', not_or, Bool.not_eq_true, Bool.not_eq_false]
        at hplain
      obtain rfl : c = d := by simpa using hd
      exact isGap_of_literal hc hplain.1.1.1 hplain.1.1.2

theorem doubleRun?_append {word : List Char} (h : ∀ c ∈ word, c ≠ ' ') (r : List Char) :
    doubleRun? .text (word.flatMap doubleBody ++ r) =
      (doubleRun? .text r).map fun p => (word ++ p.1, p.2) := by
  induction word with
  | nil => simp
  | cons c word ih =>
    have hi := ih fun d hd => h d (List.mem_cons_of_mem c hd)
    rw [List.flatMap_cons, List.append_assoc, doubleRun?_doubleBody (h c List.mem_cons_self), hi]
    simp [Function.comp_def]

theorem doubleBody_space : doubleBody ' ' = [' '] := by
  decide

theorem doubleBody_spaces {sp : List Char} (h : ∀ c ∈ sp, c = ' ') :
    sp.flatMap doubleBody = sp := by
  induction sp with
  | nil => rfl
  | cons c sp ih =>
    have hi := ih fun d hd => h d (List.mem_cons_of_mem c hd)
    rw [List.flatMap_cons, hi, h c List.mem_cons_self, doubleBody_space]
    rfl

theorem readsRuns_double : ReadsRuns (doubleRun? .text) doubleWritten (fun _ => True) ['\n'] := by
  intro v _
  obtain ⟨word, rest, rfl, hword, hrest⟩ := exists_run (· != ' ') v
  replace hword : ∀ c ∈ word, c ≠ ' ' := fun c hc => by simpa using hword c hc
  have hwritten : doubleWritten (word ++ rest) = word.flatMap doubleBody ++ doubleWritten rest := by
    simp [doubleWritten]
  rw [hwritten, doubleRun?_append hword]
  obtain ⟨sp, more, rfl, hsp, hmore⟩ := exists_run (· == ' ') rest
  replace hsp : ∀ c ∈ sp, c = ' ' := fun c hc => by simpa using hsp c hc
  have hstart : StartsWord (doubleWritten more) := by
    apply startsWord_doubleWritten
    intro c hc
    simpa using hmore c hc
  cases sp with
  | nil =>
    have hend : more = [] := by
      cases more with
      | nil => rfl
      | cons c more =>
        have hc := hmore c rfl
        have hspace : c = ' ' := by simpa using hrest c rfl
        simp [hspace] at hc
    subst hend
    exact .inl (by simp [doubleWritten, doubleRun?])
  | cons c sp =>
    have hspaces : doubleWritten (c :: sp ++ more) = c :: sp ++ doubleWritten more := by
      simp only [doubleWritten, List.flatMap_append, doubleBody_spaces hsp, List.append_assoc]
    have hc : c = ' ' := hsp c List.mem_cons_self
    have hrun : doubleRun? .text (c :: sp ++ doubleWritten more) =
        some ([], .gap, c :: sp ++ doubleWritten more) := by
      simp [hc, doubleRun?, isGap, isSpace]
    refine .inr ⟨word, ⟨c :: sp, []⟩, more, c :: sp ++ doubleWritten more, rfl,
      List.cons_ne_nil c sp, trivial, by rw [hspaces, hrun]; simp, ?_⟩
    intro column line hcolumn
    refine ⟨⟨doubleWritten more, column + (c :: sp).length, line⟩, ?_, rfl, by simp⟩
    exact gap?_spaces hsp hstart 0 column line

theorem length_le_doubleBody (v : List Char) : v.length ≤ (v.flatMap doubleBody).length := by
  induction v with
  | nil => exact Nat.le_refl 0
  | cons c v ih =>
    have hc : 1 ≤ (doubleBody c).length := by
      unfold doubleBody
      split <;> simp
    simp only [List.flatMap_cons, List.length_append, List.length_cons]
    omega

theorem quoted?_double (v : List Char) {c : Cursor} (hc : c.column ≠ 0)
    (hrest : c.rest = doubleWritten v) :
    ∃ place, quoted? false c = some (v, place) ∧ place.rest = ['\n'] := by
  have hf : v.length < c.rest.length + 1 := by
    have hle := length_le_doubleBody v
    rw [hrest, doubleWritten, List.length_append]
    omega
  exact quotedTail?_eq readsRuns_double trivial hf hc hrest

end Double

end SceneScript.Yaml
