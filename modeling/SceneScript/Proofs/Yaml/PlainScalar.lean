import SceneScript.Proofs.Yaml.Gap

namespace SceneScript.Yaml

theorem startsGap_append {s t : List Char} (hs : startsGap s) (ht : startsGap t) :
    startsGap (s ++ t) := by
  cases s with
  | nil => exact ht
  | cons c s => exact hs

theorem hasInnerIndicator_append {s t : List Char} (h : hasInnerIndicator (s ++ t) = false) :
    hasInnerIndicator t = false := by
  induction s with
  | nil => exact h
  | cons c s ih =>
    rw [List.cons_append, hasInnerIndicator, Bool.or_eq_false_iff] at h
    exact ih h.2

theorem plainWord?_eq {t r : List Char} (hr : startsGap r) (h : hasInnerIndicator t = false) :
    plainWord? false (t ++ r) =
      some (t.takeWhile (!isGap ·), t.dropWhile (!isGap ·) ++ r) := by
  induction t with
  | nil =>
    cases r with
    | nil => rfl
    | cons c r =>
      have hc : isGap c = true := hr
      simp [plainWord?, hc]
  | cons c t ih =>
    simp only [hasInnerIndicator, Bool.or_eq_false_iff] at h
    obtain ⟨⟨hcolon, -⟩, ht⟩ := h
    by_cases hc : isGap c = true
    · simp [plainWord?, hc]
    · have hstop : (c == ':' && startsGap (t ++ r)) = false := by
        cases t with
        | nil =>
          have hne : c ≠ ':' := by simpa [startsGap] using hcolon
          simp [hne]
        | cons d t => simpa [startsGap] using hcolon
      simp only [Bool.not_eq_true] at hc
      simp [plainWord?, hc, hstop, ih ht]

/-- A text whose blanks are single spaces or several, none of them at its ends, and in which nothing
ends a plain scalar. -/
structure Wordy (t : List Char) : Prop where
  ne_nil : t ≠ []
  head : ∀ c ∈ t.head?, isGap c = false ∧ c ≠ '#'
  last : ∀ c ∈ t.getLast?, isGap c = false
  spaces : ∀ c ∈ t, isGap c → c = ' '
  plain : hasInnerIndicator t = false

theorem Wordy.cases {t : List Char} (h : Wordy t) :
    ∃ word sp more, t = word ++ (sp ++ more) ∧ word ≠ [] ∧ (∀ c ∈ word, isGap c = false) ∧
      (∀ c ∈ sp, c = ' ') ∧ (sp = [] ∧ more = [] ∨ sp ≠ [] ∧ Wordy more) := by
  obtain ⟨c, cs, rfl⟩ := List.exists_cons_of_ne_nil h.ne_nil
  have hfirst : (!isGap c) = true := by simp [(h.head c rfl).1]
  obtain ⟨front, last, rest, hcs, hword, hrest⟩ :=
    exists_run_cons (p := (!isGap ·)) hfirst cs
  rw [hcs] at h ⊢
  replace hword : ∀ d ∈ front ++ [last], isGap d = false := fun d hd => by simpa using hword d hd
  cases rest with
  | nil =>
    exact ⟨front ++ [last], [], [], by simp, by simp, hword, by simp, .inl ⟨rfl, rfl⟩⟩
  | cons g rest =>
    have hg : isGap g := by simpa using hrest g rfl
    obtain ⟨sp, blank, more, hmore, hsp, hstart⟩ := exists_run_cons hg rest
    rw [hmore] at h ⊢
    have hspaces : ∀ d ∈ sp ++ [blank], d = ' ' := by
      intro d hd
      exact h.spaces d (List.mem_append_right _ (List.mem_append_left _ hd)) (hsp d hd)
    refine ⟨front ++ [last], sp ++ [blank], more, rfl, by simp, hword, hspaces, .inr ⟨by simp, ?_⟩⟩
    refine ⟨?_, fun d hd => ⟨hstart d hd, ?_⟩, fun d hd => ?_, fun d hd => ?_, ?_⟩
    · rintro rfl
      have hlast := h.last blank (by
        rw [List.append_nil, ← List.append_assoc, List.getLast?_concat]
        rfl)
      simp [hsp blank (by simp)] at hlast
    · rintro rfl
      obtain ⟨ds, rfl⟩ : ∃ ds, more = '#' :: ds := List.head?_eq_some_iff.mp hd
      have hplain : hasInnerIndicator (blank :: '#' :: ds) = false := by
        apply hasInnerIndicator_append (s := front ++ [last] ++ sp)
        simpa using h.plain
      simp [hasInnerIndicator, hsp blank (by simp)] at hplain
    · apply h.last
      rw [List.getLast?_append, List.getLast?_append, hd]
      rfl
    · exact h.spaces d (by simp [hd])
    · apply hasInnerIndicator_append (s := front ++ [last] ++ (sp ++ [blank]))
      simpa using h.plain

theorem takeWhile_word {word rest : List Char} (hw : ∀ c ∈ word, isGap c = false)
    (hr : startsGap rest) :
    (word ++ rest).takeWhile (!isGap ·) = word ∧ (word ++ rest).dropWhile (!isGap ·) = rest := by
  have hp : ∀ c ∈ word, (!isGap c) = true := fun c hc => by simp [hw c hc]
  rw [List.takeWhile_append_of_pos hp, List.dropWhile_append_of_pos hp]
  cases rest with
  | nil => simp
  | cons c rest =>
    have hc : isGap c = true := hr
    simp [hc]

theorem plainTail?_eq {t s : List Char} (h : Wordy t) (hs : StartsWord s) {fuel : Nat}
    (hf : t.length < fuel) (gap : Gap) {column : Nat} (hc : column ≠ 0) (line : Nat) :
    plainTail? false 1 fuel gap ⟨t ++ '\n' :: s, column, line⟩ =
      some (gap.text ++ t, ⟨s, 0, line + 1⟩, true) := by
  -- A step of the fuel reads one word with the spaces behind it.
  induction fuel generalizing t gap column with
  | zero => omega
  | succ fuel ih =>
    have hnewline : isGap '\n' = true := by decide
    obtain ⟨word, sp, more, rfl, hne, hword, hsp, hmore⟩ := h.cases
    have hhash : ((word ++ (sp ++ more) ++ '\n' :: s).head? == some '#') = false := by
      obtain ⟨c, cs, rfl⟩ := List.exists_cons_of_ne_nil hne
      simpa using (h.head c rfl).2
    have hrest : startsGap (sp ++ more) := by
      rcases hmore with ⟨rfl, rfl⟩ | ⟨hsp_ne, -⟩
      · rfl
      · obtain ⟨c, cs, rfl⟩ := List.exists_cons_of_ne_nil hsp_ne
        rw [hsp c List.mem_cons_self]
        rfl
    have hread := plainWord?_eq (r := '\n' :: s) (by simpa [startsGap]) h.plain
    rw [(takeWhile_word hword hrest).1, (takeWhile_word hword hrest).2] at hread
    have hmark :
        (⟨word ++ (sp ++ more) ++ '\n' :: s, column, line⟩ : Cursor).atDocumentMark = false :=
      atDocumentMark_eq_false hc
    have hmoved : (⟨word ++ (sp ++ more) ++ '\n' :: s, column, line⟩ : Cursor).moved
        (sp ++ more ++ '\n' :: s) = ⟨sp ++ (more ++ '\n' :: s), column + word.length, line⟩ := by
      simp [Cursor.moved]
    have hgap : startsGap (sp ++ more ++ '\n' :: s) := startsGap_append hrest hnewline
    unfold plainTail?
    rcases hmore with ⟨rfl, rfl⟩ | ⟨hsp_ne, hmore⟩
    · simp only [hmark, hhash, hread, hgap, hmoved]
      simp [hne, gap?_newline hs]
    · have hstart : StartsWord (more ++ '\n' :: s) := by
        intro c hc
        obtain ⟨d, ds, rfl⟩ := List.exists_cons_of_ne_nil hmore.ne_nil
        exact (hmore.head c hc).1
      have hlength : more.length < fuel := by
        have hpos := List.length_pos_iff.mpr hne
        simp only [List.length_append] at hf
        omega
      have hplace : column + word.length + sp.length ≠ 0 := by omega
      have hinside : ¬column + word.length + sp.length < 1 := by omega
      simp only [hmark, hhash, hread, hgap, hmoved]
      simp [hne, gap?_spaces hsp hstart, ih hmore hlength ⟨sp, []⟩ hplace, hinside, Gap.text]

theorem plain?_value {t s : List Char} (h : Wordy t) (hs : StartsWord s) {column : Nat}
    (hc : column ≠ 0) (line : Nat) :
    plain? false 1 ⟨t ++ '\n' :: s, column, line⟩ = some (t, ⟨s, 0, line + 1⟩, true) := by
  have hf : t.length < (t ++ '\n' :: s).length + 1 := by
    simp only [List.length_append]
    omega
  exact plainTail?_eq h hs hf ⟨[], []⟩ hc line

theorem wordy_of_allowsPlain {t : List Char} (h : allowsPlain t) (hne : t ≠ []) : Wordy t := by
  simp only [allowsPlain, hasIndicator, Bool.not_eq_true', Bool.or_eq_false_iff,
    beq_eq_false_iff_ne] at h
  obtain ⟨⟨⟨⟨hbreak, hspecial⟩, hfirst⟩, hlast⟩, ⟨-, hlead⟩, hinner⟩ := h
  have hgap : ∀ c ∈ t, isGap c → c = ' ' := by
    intro c hc hg
    have hb : isBreak c = false := by
      simpa using List.any_eq_false.mp hbreak c hc
    have hs : isSpace c := by simpa [isGap, hb] using hg
    exact eq_space_of_isSpace hs (isPrintable_of_not_hasSpecial hspecial c hc)
  have hgap_false : ∀ c ∈ t, c ≠ ' ' → isGap c = false := by
    intro c hc hne
    cases hg : isGap c with
    | false => rfl
    | true => exact absurd (hgap c hc hg) hne
  refine ⟨hne, fun c hc => ⟨?_, ?_⟩, fun c hc => ?_, hgap, hinner⟩
  · apply hgap_false c (List.mem_of_mem_head? hc)
    rintro rfl
    exact hfirst hc
  · rintro rfl
    obtain ⟨cs, rfl⟩ : ∃ cs, t = '#' :: cs := List.head?_eq_some_iff.mp hc
    simp [isLeadingIndicator] at hlead
  · apply hgap_false c (List.mem_of_mem_getLast? hc)
    rintro rfl
    exact hlast hc

def StartsPlain (c : Char) (s : List Char) : Prop :=
  isGap c = false ∧ isLeadingIndicator c = false ∧
    ((c = '-' ∨ c = '?' ∨ c = ':') → startsGap s = false)

theorem startsPlain_of_allowsPlain {c : Char} {t : List Char} (h : allowsPlain (c :: t))
    (s : List Char) : StartsPlain c (t ++ '\n' :: s) := by
  have hgap := ((wordy_of_allowsPlain h (List.cons_ne_nil c t)).head c rfl).1
  have hnext : startsGap (t ++ '\n' :: s) = startsGap t := by
    cases t <;> rfl
  simp only [allowsPlain, hasIndicator, hasInnerIndicator, Bool.not_eq_true',
    Bool.or_eq_false_iff] at h
  obtain ⟨-, ⟨-, hlead, hmark⟩, ⟨hcolon, -⟩, -⟩ := h
  refine ⟨hgap, hlead, ?_⟩
  rintro (rfl | rfl | rfl) <;> rw [hnext]
  · simpa using hmark
  · simpa using hmark
  · simpa using hcolon

structure IsKey (key : List Char) : Prop where
  ne_nil : key ≠ []
  word : ∀ c ∈ key, isGap c = false ∧ c ≠ ':'
  head : ∀ c ∈ key.head?, isLeadingIndicator c = false ∧ c ≠ '-' ∧ c ≠ '?' ∧ c ≠ '.'

theorem isKey_of_all {c : Char} {cs : List Char}
    (hword : (c :: cs).all fun d => !isGap d && d != ':')
    (hhead : !isLeadingIndicator c && c != '-' && c != '?' && c != '.') : IsKey (c :: cs) := by
  refine ⟨List.cons_ne_nil c cs, fun d hd => ?_, fun d hd => ?_⟩
  · simpa using List.all_eq_true.mp hword d hd
  · obtain rfl : c = d := Option.some.inj hd
    simpa [and_assoc] using hhead

theorem IsKey.startsWord {key : List Char} (h : IsKey key) (s : List Char) :
    StartsWord (key ++ s) := by
  obtain ⟨c, cs, rfl⟩ := List.exists_cons_of_ne_nil h.ne_nil
  intro d hd
  obtain rfl : c = d := Option.some.inj hd
  exact (h.word c List.mem_cons_self).1

theorem plainWord?_key {key s : List Char} (h : ∀ c ∈ key, isGap c = false ∧ c ≠ ':') :
    plainWord? false (key ++ ':' :: ' ' :: s) = some (key, ':' :: ' ' :: s) := by
  induction key with
  | nil => rfl
  | cons c key ih =>
    have hc := h c List.mem_cons_self
    have hi := ih fun d hd => h d (List.mem_cons_of_mem c hd)
    simp [plainWord?, hc.1, hc.2, hi]

theorem IsKey.atDocumentMark {key : List Char} (h : IsKey key) (s : List Char)
    (column line : Nat) : (⟨key ++ s, column, line⟩ : Cursor).atDocumentMark = false := by
  obtain ⟨c, cs, rfl⟩ := List.exists_cons_of_ne_nil h.ne_nil
  obtain ⟨-, hdash, -, hdot⟩ := h.head c rfl
  have hfirst : ∀ mark, c ≠ mark → (⟨c :: cs ++ s, column, line⟩ : Cursor).atMark mark = false :=
    fun mark hne => atMark_eq_false rfl hne
  rw [Cursor.atDocumentMark, hfirst '-' hdash, hfirst '.' hdot]
  rfl

theorem plain?_key {key : List Char} (h : IsKey key) (s : List Char) (indent column line : Nat) :
    plain? false indent ⟨key ++ ':' :: ' ' :: s, column, line⟩ =
      some (key, ⟨':' :: ' ' :: s, column + key.length, line⟩, false) := by
  have hhash : ((key ++ ':' :: ' ' :: s).head? == some '#') = false := by
    obtain ⟨c, cs, rfl⟩ := List.exists_cons_of_ne_nil h.ne_nil
    have hlead := (h.head c rfl).1
    rw [beq_eq_false_iff_ne]
    rintro hc
    obtain rfl : c = '#' := by simpa using hc
    simp [isLeadingIndicator] at hlead
  have hmoved : (⟨key ++ ':' :: ' ' :: s, column, line⟩ : Cursor).moved (':' :: ' ' :: s) =
      ⟨':' :: ' ' :: s, column + key.length, line⟩ := by
    simp [Cursor.moved]
  have hgap : startsGap (':' :: ' ' :: s) = false := rfl
  simp only [plain?, plainTail?, h.atDocumentMark, hhash, plainWord?_key h.word, hmoved, hgap]
  simp [h.ne_nil, Gap.text]

end SceneScript.Yaml
