import SceneScript.Proofs.Yaml.Written
import SceneScript.Yaml.Token

namespace SceneScript.Yaml

namespace Lexer

theorem startsSpace_of_startsGap {s : List Char} (h : startsGap s = false) :
    startsSpace s = false := by
  cases s with
  | nil => rfl
  | cons c s =>
    have hc := isGap_eq_false.mp h
    simpa [startsSpace] using hc.1

theorem indicators_cases {c : Char} (h : indicators.contains c) :
    isLeadingIndicator c ∨ c = '-' ∨ c = '?' ∨ c = ':' := by
  have hall : indicators.all fun d => isLeadingIndicator d || d == '-' || d == '?' || d == ':' := by
    decide
  have hc := List.all_eq_true.mp hall c (List.contains_iff_mem.mp h)
  simpa [or_assoc] using hc

theorem token?_plain {l : Lexer} {c : Char} {s : List Char} (h : StartsPlain c s)
    (hmark : l.cursor.atDocumentMark = false) (hflow : l.inFlow = false) :
    l.token? c s = l.plainScalar := by
  obtain ⟨hgap, hlead, hnext⟩ := h
  simp only [Cursor.atDocumentMark, Bool.or_eq_false_iff] at hmark
  have hne : ∀ d, isLeadingIndicator d → (c == d) = false := by
    intro d hd
    rw [beq_eq_false_iff_ne]
    rintro rfl
    simp [hlead] at hd
  have hstop : ∀ d, (d = '-' ∨ d = '?' ∨ d = ':') → (c == d && startsGap s) = false := by
    intro d hd
    by_cases hc : c = d
    · simp [hnext (hc ▸ hd)]
    · simp [hc]
  have hlast : (!(isGap c || indicators.contains c) || (c == '-' && !startsSpace s)
      || (!false && (c == '?' || c == ':') && !startsGap s)) = true := by
    cases hi : indicators.contains c with
    | false => simp [hgap]
    | true =>
      have hnear := (indicators_cases hi).resolve_left (by simp [hlead])
      have hs := hnext hnear
      rcases hnear with rfl | rfl | rfl <;> simp [hs, startsSpace_of_startsGap hs]
  unfold token?
  simp only [hmark, hne '%' rfl, hne '[' rfl, hne '\x7b' rfl, hne ']' rfl, hne '\x7d' rfl,
    hne ',' rfl, hne '*' rfl, hne '&' rfl, hne '!' rfl, hne '|' rfl, hne '>' rfl, hne '\'' rfl,
    hne '"' rfl, hflow, hstop '-' (.inl rfl), hstop '?' (.inr (.inl rfl)),
    hstop ':' (.inr (.inr rfl)), hlast, Bool.and_false, Bool.false_and, Bool.false_or,
    Bool.false_eq_true, if_false, if_true]

def atEntry (first : Bool) (tokens : List Token) (line : Nat) (rest : List Char) : Lexer where
  cursor := ⟨rest, 0, line⟩
  tokens := tokens
  indent := if first then -1 else 0
  indents := if first then [] else [-1]
  candidates := [none]
  keyAllowed := true

def inEntry (tokens : List Token) (allowed : Bool) (place : Cursor) : Lexer where
  cursor := place
  tokens := tokens
  indent := 0
  indents := [-1]
  candidates := [none]
  keyAllowed := allowed

theorem nextToken_here {c : Char} (hgap : isGap c = false) (hmark : c ≠ '#') (allowed : Bool)
    (column line : Nat) (s : List Char) :
    nextToken false false allowed column line (c :: s) = (⟨c :: s, column, line⟩, allowed) := by
  simp only [isGap, isSpace, Bool.or_eq_false_iff, beq_eq_false_iff_ne] at hgap
  simp [nextToken, hgap, hmark]

theorem nextToken_space {c : Char} (hgap : isGap c = false) (hmark : c ≠ '#') (allowed : Bool)
    (column line : Nat) (s : List Char) :
    nextToken false false allowed column line (' ' :: c :: s) =
      (⟨c :: s, column + 1, line⟩, allowed) := by
  rw [← nextToken_here hgap hmark]
  simp [nextToken, isBreak]

theorem run_token {l m n : Lexer} {c : Char} {s : List Char}
    (hplace : nextToken l.inFlow false l.keyAllowed l.cursor.column l.cursor.line l.cursor.rest =
      (m.cursor, m.keyAllowed))
    (hstale : ((l.moveTo m.cursor).allowing m.keyAllowed).dropStale = some m)
    (hclose : m.closeBlocks m.cursor.column = m) (hrest : m.cursor.rest = c :: s)
    (htoken : m.token? c s = some n) (fuel : Nat) : run (fuel + 1) l = run fuel n := by
  simp [run, hplace, hstale, hclose, hrest, htoken]

def behindKey (first : Bool) (key : List Char) (tokens : List Token) (line : Nat)
    (s : List Char) : Lexer where
  cursor := ⟨':' :: ' ' :: s, key.length, line⟩
  tokens := .scalar .plain key :: tokens
  indent := if first then -1 else 0
  indents := if first then [] else [-1]
  candidates := [some ⟨tokens.length, 0, line, (key ++ ':' :: ' ' :: s).length, !first⟩]
  keyAllowed := false

theorem startsPlain_key {c : Char} {key s : List Char} (h : IsKey (c :: key)) :
    StartsPlain c s := by
  obtain ⟨hlead, hdash, hquestion, -⟩ := h.head c rfl
  have hcolon := (h.word c List.mem_cons_self).2
  refine ⟨(h.word c List.mem_cons_self).1, hlead, ?_⟩
  rintro (rfl | rfl | rfl) <;> contradiction

theorem saveCandidate_atEntry (first : Bool) (tokens : List Token) (line : Nat)
    (rest : List Char) :
    (atEntry first tokens line rest).saveCandidate = some { atEntry first tokens line rest with
      candidates := [some ⟨tokens.length, 0, line, rest.length, !first⟩] } := by
  cases first <;> rfl

theorem plainScalar_key {key : List Char} (h : IsKey key) (first : Bool) (tokens : List Token)
    (line : Nat) (s : List Char) :
    (atEntry first tokens line (key ++ ':' :: ' ' :: s)).plainScalar =
      some (behindKey first key tokens line s) := by
  have hread (indent : Nat) : plain? false indent ⟨key ++ ':' :: ' ' :: s, 0, line⟩ =
      some (key, ⟨':' :: ' ' :: s, key.length, line⟩, false) := by
    simpa using plain?_key h s indent 0 line
  simp only [plainScalar, saveCandidate_atEntry, Option.bind_eq_bind, Option.bind_some]
  change (plain? false _ ⟨key ++ ':' :: ' ' :: s, 0, line⟩).bind _ = _
  rw [hread]
  rfl

theorem run_keyScalar {key : List Char} (h : IsKey key) (first : Bool) (tokens : List Token)
    (line : Nat) (s : List Char) (fuel : Nat) :
    run (fuel + 1) (atEntry first tokens line (key ++ ':' :: ' ' :: s)) =
      run fuel (behindKey first key tokens line s) := by
  obtain ⟨c, cs, rfl⟩ := List.exists_cons_of_ne_nil h.ne_nil
  have hstart : StartsPlain c (cs ++ ':' :: ' ' :: s) := startsPlain_key h
  have hmark : c ≠ '#' := by
    rintro rfl
    simpa [isLeadingIndicator] using hstart.2.1
  have htoken : (atEntry first tokens line (c :: cs ++ ':' :: ' ' :: s)).token? c
      (cs ++ ':' :: ' ' :: s) = some (behindKey first (c :: cs) tokens line s) := by
    rw [token?_plain hstart (h.atDocumentMark _ 0 line) rfl, plainScalar_key h]
  have hplace := nextToken_here hstart.1 hmark true 0 line (cs ++ ':' :: ' ' :: s)
  have hclose : (atEntry first tokens line (c :: cs ++ ':' :: ' ' :: s)).closeBlocks 0 =
      atEntry first tokens line (c :: cs ++ ':' :: ' ' :: s) := by
    cases first <;> rfl
  exact run_token (l := atEntry first tokens line (c :: cs ++ ':' :: ' ' :: s))
    (m := atEntry first tokens line (c :: cs ++ ':' :: ' ' :: s)) hplace rfl hclose rfl htoken fuel

def keyTokens (first : Bool) (key : List Char) : List Token :=
  .value :: .scalar .plain key :: .key :: if first then [.blockMapping] else []

theorem valueMark_key (first : Bool) (key : List Char) (tokens : List Token) (line : Nat)
    (s : List Char) :
    (behindKey first key tokens line s).valueMark =
      some (inEntry (keyTokens first key ++ tokens) false ⟨' ' :: s, key.length + 1, line⟩) := by
  have htwo : tokens.length + 1 + 1 - tokens.length = 2 := by omega
  cases first <;>
    simp [valueMark, behindKey, candidate?, emitAt, openBlock, inFlow, allowing, indicator, moveTo,
      emit, Cursor.skip, inEntry, keyTokens, htwo]

theorem run_colon {key : List Char} (hshort : key.length ≤ greatestKey) (first : Bool)
    (tokens : List Token) (line : Nat) (s : List Char) (fuel : Nat) :
    run (fuel + 1) (behindKey first key tokens line s) =
      run fuel (inEntry (keyTokens first key ++ tokens) false ⟨' ' :: s, key.length + 1, line⟩) := by
  have hstale : ((behindKey first key tokens line s).moveTo
      (behindKey first key tokens line s).cursor |>.allowing false).dropStale =
        some (behindKey first key tokens line s) := by
    have hnear : ¬greatestKey < key.length := Nat.not_lt.mpr hshort
    simp [dropStale, moveTo, allowing, isStale, behindKey, hnear]
  have hclose : (behindKey first key tokens line s).closeBlocks key.length =
      behindKey first key tokens line s := by
    cases first with
    | true => rfl
    | false =>
      have hdeep : ¬(key.length : Int) < 0 := by omega
      simp [closeBlocks, behindKey, inFlow, closing, hdeep]
  have htoken : (behindKey first key tokens line s).token? ':' (' ' :: s) =
      some (inEntry (keyTokens first key ++ tokens) false ⟨' ' :: s, key.length + 1, line⟩) := by
    have hdash : (behindKey first key tokens line s).cursor.atMark '-' = false :=
      atMark_eq_false rfl (by decide)
    have hdot : (behindKey first key tokens line s).cursor.atMark '.' = false :=
      atMark_eq_false rfl (by decide)
    rw [← valueMark_key]
    simp [token?, hdash, hdot, startsGap, isGap, isSpace]
  exact run_token (l := behindKey first key tokens line s) (m := behindKey first key tokens line s)
    rfl hstale hclose rfl htoken fuel

theorem run_key {key : List Char} (h : IsKey key) (hshort : key.length ≤ greatestKey)
    (first : Bool) (tokens : List Token) (line : Nat) (s : List Char) (fuel : Nat) :
    run (fuel + 2) (atEntry first tokens line (key ++ ':' :: ' ' :: s)) =
      run fuel (inEntry (keyTokens first key ++ tokens) false ⟨' ' :: s, key.length + 1, line⟩) := by
  rw [run_keyScalar h, run_colon hshort]

theorem run_value {c : Char} {s : List Char} {tokens : List Token} {column line : Nat} {n : Lexer}
    (hgap : isGap c = false) (hmark : c ≠ '#')
    (htoken : (inEntry tokens false ⟨c :: s, column + 1, line⟩).token? c s = some n) (fuel : Nat) :
    run (fuel + 1) (inEntry tokens false ⟨' ' :: c :: s, column, line⟩) = run fuel n := by
  have hplace := nextToken_space hgap hmark false column line s
  have hclose : (inEntry tokens false ⟨c :: s, column + 1, line⟩).closeBlocks (column + 1 : Nat) =
      inEntry tokens false ⟨c :: s, column + 1, line⟩ := by
    have hdeep : ¬((column + 1 : Nat) : Int) < 0 := by omega
    simp only [closeBlocks, inEntry, inFlow, closing, hdeep]
    rfl
  exact run_token (l := inEntry tokens false ⟨' ' :: c :: s, column, line⟩)
    (m := inEntry tokens false ⟨c :: s, column + 1, line⟩) hplace rfl hclose rfl htoken fuel

theorem run_plain {c : Char} {t s : List Char} (h : Wordy (c :: t))
    (hstart : StartsPlain c (t ++ '\n' :: s)) (hs : StartsWord s) (tokens : List Token)
    (column line : Nat) (fuel : Nat) :
    run (fuel + 1) (inEntry tokens false ⟨' ' :: (c :: t ++ '\n' :: s), column, line⟩) =
      run fuel (inEntry (.scalar .plain (c :: t) :: tokens) true ⟨s, 0, line + 1⟩) := by
  have htoken : (inEntry tokens false ⟨c :: t ++ '\n' :: s, column + 1, line⟩).token? c
      (t ++ '\n' :: s) =
        some (inEntry (.scalar .plain (c :: t) :: tokens) true ⟨s, 0, line + 1⟩) := by
    have hread := plain?_value h hs (Nat.succ_ne_zero column) line
    rw [token?_plain hstart (atDocumentMark_eq_false (Nat.succ_ne_zero column)) rfl]
    change (plain? false 1 ⟨c :: t ++ '\n' :: s, column + 1, line⟩).bind _ = _
    rw [hread]
    rfl
  exact run_value hstart.1 (h.head c rfl).2 htoken fuel

@[simp] theorem inFlow_inEntry (tokens : List Token) (allowed : Bool) (place : Cursor) :
    (inEntry tokens allowed place).inFlow = false := rfl

theorem atMark_inEntry (tokens : List Token) (mark : Char) (rest : List Char) (column line : Nat) :
    (inEntry tokens false ⟨rest, column + 1, line⟩).cursor.atMark mark = false :=
  atMark_inside (Nat.succ_ne_zero column) mark

theorem token?_quoted (single : Bool) (tokens : List Token) (s : List Char) (column line : Nat) :
    (inEntry tokens false ⟨quoteOf single :: s, column + 1, line⟩).token? (quoteOf single) s =
      (inEntry tokens false ⟨quoteOf single :: s, column + 1, line⟩).flowScalar
        (quotedStyle single) fun p => quoted? single (p.skip 1) := by
  cases single <;> simp [token?, quoteOf, quotedStyle, atMark_inEntry]

theorem token?_literal (tokens : List Token) (s : List Char) (column line : Nat) :
    (inEntry tokens false ⟨'|' :: s, column + 1, line⟩).token? '|' s =
      (inEntry tokens false ⟨'|' :: s, column + 1, line⟩).blockScalar true := by
  simp [token?, atMark_inEntry]

theorem run_quoted {single : Bool} {v written : List Char}
    (h : ∀ c : Cursor, c.column ≠ 0 → c.rest = written →
      ∃ place, quoted? single c = some (v, place) ∧ place.rest = ['\n'])
    (tokens : List Token) (column line : Nat) (fuel : Nat) :
    ∃ place, place.rest = ['\n'] ∧
      run (fuel + 1) (inEntry tokens false ⟨' ' :: quoteOf single :: written, column, line⟩) =
        run fuel (inEntry (.scalar (quotedStyle single) v :: tokens) false place) := by
  obtain ⟨place, hread, hend⟩ := h ⟨written, column + 2, line⟩ (Nat.succ_ne_zero _) rfl
  have htoken : (inEntry tokens false ⟨quoteOf single :: written, column + 1, line⟩).token?
      (quoteOf single) written =
        some (inEntry (.scalar (quotedStyle single) v :: tokens) false place) := by
    rw [token?_quoted]
    change (quoted? single ⟨written, column + 2, line⟩).bind _ = _
    rw [hread]
    rfl
  have hgap : isGap (quoteOf single) = false ∧ quoteOf single ≠ '#' := by
    cases single <;> decide
  exact ⟨place, hend, run_value hgap.1 hgap.2 htoken fuel⟩

theorem run_literal {v : List Char} (hspecial : hasSpecial v = false) (hne : v ≠ [])
    (tokens : List Token) (column line : Nat) (fuel : Nat) :
    ∃ place, place.rest = [] ∧
      run (fuel + 1) (inEntry tokens false ⟨' ' :: '|' :: literalWritten v, column, line⟩) =
        run fuel (inEntry (.scalar .literal v :: tokens) true place) := by
  obtain ⟨place, hread, hend⟩ := block?_literal hspecial hne
    (c := ⟨literalWritten v, column + 2, line⟩) rfl
  refine ⟨place, hend, run_value rfl (by decide) ?_ fuel⟩
  rw [token?_literal]
  change (block? true 0 ⟨literalWritten v, column + 2, line⟩).bind _ = _
  rw [hread]
  rfl

theorem run_end {place : Cursor} (h : place.rest = [] ∨ place.rest = ['\n']) (tokens : List Token)
    (allowed : Bool) (fuel : Nat) :
    run (fuel + 1) (inEntry tokens allowed place) = some (Token.blockEnd :: tokens).reverse := by
  obtain ⟨rest, column, line⟩ := place
  rcases h with h | h <;> obtain rfl : rest = _ := h <;> rfl

theorem run_written {v text : List Char} {style : Style} (h : Written v style text)
    (tokens : List Token) (column line : Nat) (fuel : Nat) :
    run (fuel + 2) (inEntry tokens false ⟨' ' :: text, column, line⟩) =
      some (Token.blockEnd :: .scalar style v :: tokens).reverse := by
  cases h with
  | plain hquotes hallows =>
    have hne : v ≠ [] := by
      rintro rfl
      simp [needsQuotes] at hquotes
    obtain ⟨c, t, rfl⟩ := List.exists_cons_of_ne_nil hne
    have hend : StartsWord [] := by simp [StartsWord]
    rw [run_plain (wordy_of_allowsPlain hallows hne) (startsPlain_of_allowsPlain hallows []) hend,
      run_end (.inl rfl)]
  | single hnewline hallows =>
    obtain ⟨place, hend, hread⟩ :=
      run_quoted (fun c => quoted?_single hallows hnewline) tokens column line (fuel + 1)
    rw [hread, run_end (.inr hend)]
    rfl
  | double =>
    obtain ⟨place, hend, hread⟩ :=
      run_quoted (fun c => quoted?_double v) tokens column line (fuel + 1)
    rw [hread, run_end (.inr hend)]
    rfl
  | literal hne hspecial =>
    obtain ⟨place, hend, hread⟩ := run_literal hspecial hne tokens column line (fuel + 1)
    rw [hread, run_end (.inl hend)]

theorem run_plainEntry {key value s : List Char} (h : IsKey key)
    (hshort : key.length ≤ greatestKey) (hvalue : allowsPlain value) (hne : value ≠ [])
    (hs : StartsWord s) (first : Bool) (tokens : List Token) (line : Nat) (fuel : Nat) :
    run (fuel + 3) (atEntry first tokens line (key ++ ':' :: ' ' :: (value ++ '\n' :: s))) =
      run fuel
        (atEntry false (.scalar .plain value :: (keyTokens first key ++ tokens)) (line + 1) s) := by
  obtain ⟨c, t, rfl⟩ := List.exists_cons_of_ne_nil hne
  rw [run_key h hshort,
    run_plain (wordy_of_allowsPlain hvalue hne) (startsPlain_of_allowsPlain hvalue s) hs]
  rfl

theorem run_lastEntry {key v text : List Char} {style : Style} (h : IsKey key)
    (hshort : key.length ≤ greatestKey) (hvalue : Written v style text) (first : Bool)
    (tokens : List Token) (line : Nat) (fuel : Nat) :
    run (fuel + 4) (atEntry first tokens line (key ++ ':' :: ' ' :: text)) =
      some (Token.blockEnd :: .scalar style v :: (keyTokens first key ++ tokens)).reverse := by
  rw [run_key h hshort, run_written hvalue]

end Lexer

end SceneScript.Yaml
