import SceneScript.Proofs.Yaml.Gap

namespace SceneScript.Yaml

def ended (v : List Char) : List Char :=
  if v.getLast?.any isBreak then v else v ++ ['\n']

theorem literalBody_concat (broken : Bool) (s : List Char) {b : Char} (hb : isBreak b) :
    literalBody broken (s ++ [b]) = literalBody broken s ++ [b] := by
  induction s generalizing broken with
  | nil => simp [literalBody, hb]
  | cons c s ih =>
    by_cases hc : isBreak c
    · simp [literalBody, hc, ih]
    · simp [literalBody, hc, ih]

def literalWritten (v : List Char) : List Char :=
  indentHint v ++ chompHint v ++ '\n' :: literalBody true (ended v)

theorem literalBody_word {word s : List Char} (h : ∀ c ∈ word, isBreak c = false)
    (hs : startsBreak s) : literalBody false (word ++ s) = word ++ literalBody true s := by
  induction word with
  | nil =>
    cases s with
    | nil => rfl
    | cons b s =>
      have hb : isBreak b = true := hs
      simp [literalBody, hb]
  | cons c word ih =>
    have hi := ih fun d hd => h d (List.mem_cons_of_mem c hd)
    simp [literalBody, h c List.mem_cons_self, hi]

theorem literalBody_breaks {bs : List Char} (h : ∀ c ∈ bs, isBreak c) (s : List Char) :
    literalBody true (bs ++ s) = bs ++ literalBody true s := by
  induction bs with
  | nil => rfl
  | cons b bs ih =>
    have hi := ih fun d hd => h d (List.mem_cons_of_mem b hd)
    simp [literalBody, h b List.mem_cons_self, hi]

theorem literalBody_line {c : Char} (h : isBreak c = false) (s : List Char) :
    literalBody true (c :: s) = margin ++ literalBody false (c :: s) := by
  simp [literalBody, h]

theorem length_le_literalBody (broken : Bool) (s : List Char) :
    s.length ≤ (literalBody broken s).length := by
  induction s generalizing broken with
  | nil => exact Nat.le_refl 0
  | cons c s ih =>
    have ht := ih true
    have hf := ih false
    unfold literalBody
    split <;> simp only [List.length_append, List.length_cons] <;> omega

def marginColumn (more : List Char) : Nat :=
  if more.isEmpty then 0 else 2

theorem blockBreaks_eq {bs more : List Char} (hbs : ∀ c ∈ bs, isBreak c)
    (hmore : ∀ c ∈ more.head?, isBreak c = false) (deepest line : Nat) :
    ∃ deep line', blockBreaks 2 deepest 0 line (bs ++ literalBody true more) =
      some (bs, deep, ⟨literalBody false more, marginColumn more, line'⟩) := by
  induction bs generalizing deepest line with
  | nil =>
    cases more with
    | nil => exact ⟨_, line, rfl⟩
    | cons c more =>
      have hc := hmore c rfl
      rw [List.nil_append, literalBody_line hc]
      refine ⟨max deepest 2, line, ?_⟩
      simp [margin, marginColumn, blockBreaks, literalBody, hc]
  | cons b bs ih =>
    have hb := hbs b List.mem_cons_self
    have htail : ∀ c ∈ bs, isBreak c := fun c hc => hbs c (List.mem_cons_of_mem b hc)
    obtain ⟨deep, line', hi⟩ := ih htail deepest (line + 1)
    refine ⟨deep, line', ?_⟩
    have hspace : b ≠ ' ' := by
      rintro rfl
      simp [isBreak] at hb
    have htab : b ≠ '\t' := by
      rintro rfl
      simp [isBreak] at hb
    simp [blockBreaks, hb, hspace, htab, hi]

/-- Lines of text that end with a line break, from their first character on. -/
structure Lined (w : List Char) : Prop where
  ne_nil : w ≠ []
  head : ∀ c ∈ w.head?, isBreak c = false
  last : ∀ c ∈ w.getLast?, isBreak c

theorem Lined.cases {w : List Char} (h : Lined w) :
    ∃ word b bs more, w = word ++ (b :: bs ++ more) ∧ word ≠ [] ∧
      (∀ c ∈ word, isBreak c = false) ∧ (∀ c ∈ b :: bs, isBreak c) ∧ (more = [] ∨ Lined more) := by
  obtain ⟨c, cs, rfl⟩ := List.exists_cons_of_ne_nil h.ne_nil
  have hc : (!isBreak c) = true := by simp [h.head c rfl]
  obtain ⟨front, last, rest, hw, hword, hrest⟩ := exists_run_cons (p := (!isBreak ·)) hc cs
  replace hword : ∀ d ∈ front ++ [last], isBreak d = false := fun d hd => by simpa using hword d hd
  rw [hw] at h ⊢
  cases rest with
  | nil =>
    have hbreak := h.last last (by simp)
    simp [hword last (by simp)] at hbreak
  | cons b rest =>
    obtain ⟨bs, more, rfl, hbs, hmore⟩ := exists_run isBreak rest
    have hb : isBreak b = true := by simpa using hrest b rfl
    refine ⟨front ++ [last], b, bs, more, rfl, by simp, hword, by simpa [hb] using hbs, ?_⟩
    cases more with
    | nil => exact .inl rfl
    | cons d more =>
      refine .inr ⟨List.cons_ne_nil d more, hmore, fun e he => h.last e ?_⟩
      rw [List.getLast?_append, List.getLast?_cons, List.getLast?_append, he]
      rfl

/-- The lines of a block up to their last character, and the line breaks behind it. -/
structure Block (w text : List Char) (b : Char) (bs : List Char) : Prop where
  whole : w = text ++ b :: bs
  breaks : ∀ c ∈ b :: bs, isBreak c
  last : ∃ front c, text = front ++ [c] ∧ isBreak c = false

theorem blockLines?_line {word bs more : List Char} {b : Char} (hne : word ≠ [])
    (hword : ∀ c ∈ word, isBreak c = false) (hbs : ∀ c ∈ b :: bs, isBreak c)
    (hmore : ∀ c ∈ more.head?, isBreak c = false) (fuel : Nat) (e : LineEnd) (blank : Bool)
    (line : Nat) :
    ∃ blank' line', blockLines? true 2 (fuel + 1) e blank
        ⟨literalBody false (word ++ (b :: bs ++ more)), 2, line⟩ =
      (blockLines? true 2 fuel ⟨[b], bs⟩ blank'
        ⟨literalBody false more, marginColumn more, line'⟩).map
          fun p => (e.first ++ e.more ++ word ++ p.1, p.2) := by
  have hb : isBreak b = true := hbs b List.mem_cons_self
  have htail : ∀ c ∈ bs, isBreak c := fun c hc => hbs c (List.mem_cons_of_mem b hc)
  obtain ⟨deep, line', hbreaks⟩ := blockBreaks_eq htail hmore 0 (line + 1)
  have hwritten : literalBody false (word ++ (b :: bs ++ more)) =
      word ++ b :: (bs ++ literalBody true more) := by
    rw [literalBody_word hword (by exact hb), literalBody_breaks hbs, List.cons_append]
  have hnot : ∀ c ∈ word, (!isBreak c) = true := fun c hc => by simp [hword c hc]
  rw [hwritten]
  refine ⟨startsSpace (word ++ b :: (bs ++ literalBody true more)), line', ?_⟩
  simp [blockLines?, hne, List.takeWhile_append_of_pos hnot, List.dropWhile_append_of_pos hnot, hb,
    Cursor.skipBreak, Cursor.moved, hbreaks, LineEnd.joining]

theorem blockLines?_eq {w : List Char} (h : Lined w) {fuel : Nat} (hf : w.length < fuel)
    (e : LineEnd) (blank : Bool) (line : Nat) :
    ∃ text b bs place, blockLines? true 2 fuel e blank ⟨literalBody false w, 2, line⟩ =
      some (text, ⟨[b], bs⟩, place) ∧ place.rest = [] ∧
      Block (e.first ++ e.more ++ w) text b bs := by
  -- A step of the fuel reads one line, and the lines behind it are shorter.
  induction fuel generalizing w e blank line with
  | zero => omega
  | succ fuel ih =>
    obtain ⟨word, b, bs, more, rfl, hne, hword, hbs, hmore⟩ := h.cases
    have hhead : ∀ c ∈ more.head?, isBreak c = false := by
      rcases hmore with rfl | hmore
      · simp
      · exact hmore.head
    obtain ⟨blank', line', hread⟩ := blockLines?_line hne hword hbs hhead fuel e blank line
    have hlength : more.length < fuel := by
      simp only [List.length_append, List.length_cons] at hf
      omega
    rcases hmore with rfl | hmore
    · obtain ⟨front, c, rfl⟩ := (List.eq_nil_or_concat word).resolve_left hne
      obtain ⟨fuel, rfl⟩ := Nat.exists_eq_succ_of_ne_zero (Nat.ne_of_gt hlength)
      refine ⟨e.first ++ e.more ++ front.concat c, b, bs, ⟨[], 0, line'⟩, ?_, rfl, ?_⟩
      · rw [hread]
        simp [blockLines?, literalBody, marginColumn]
      · exact ⟨by simp, hbs, e.first ++ e.more ++ front, c, by simp, hword c (by simp)⟩
    · obtain ⟨text, b', bs', place, hlines, hend, hblock⟩ := ih hmore hlength ⟨[b], bs⟩ blank' line'
      have hcolumn : marginColumn more = 2 := by
        simp [marginColumn, hmore.ne_nil]
      refine ⟨e.first ++ e.more ++ word ++ text, b', bs', place, ?_, hend, ?_⟩
      · rw [hread, hcolumn, hlines]
        rfl
      · obtain ⟨front, c, rfl, hc⟩ := hblock.last
        refine ⟨?_, hblock.breaks, e.first ++ e.more ++ word ++ front, c, by simp, hc⟩
        have hwhole := hblock.whole
        simp only [List.append_assoc, List.cons_append, List.nil_append] at hwhole ⊢
        rw [hwhole]

def markedChomping : List Char → Chomping
  | ['+'] => .keep
  | ['-'] => .strip
  | _ => .clip

def Chomping.tail (e : LineEnd) : Chomping → List Char
  | .strip => []
  | .clip => e.first
  | .keep => e.first ++ e.more

theorem chompHint_of_word {v : List Char} (h : v.getLast?.any isBreak = false) :
    chompHint v = ['-'] := by
  rcases List.eq_nil_or_concat v with rfl | ⟨front, c, rfl⟩
  · rfl
  · have hc : isBreak c = false := by simpa using h
    simp [chompHint, hc]

theorem chompHint_of_break {front : List Char} {c b : Char} (hc : isBreak c = false)
    (hb : isBreak b) : chompHint (front ++ [c, b]) = [] := by
  simp [chompHint, hc, hb]

theorem chompHint_of_breaks {front : List Char} {a b : Char} (ha : isBreak a) (hb : isBreak b) :
    chompHint (front ++ [a, b]) = ['+'] := by
  simp [chompHint, ha, hb]

theorem exists_last {α : Type} (x : α) (xs : List α) : ∃ front last, x :: xs = front ++ [last] :=
  ⟨(x :: xs).dropLast, (x :: xs).getLast (List.cons_ne_nil x xs),
    (List.dropLast_concat_getLast _).symm⟩

theorem exists_last_two {α : Type} (x : α) (xs : List α) (y : α) :
    ∃ front last, x :: xs.concat y = front ++ [last, y] := by
  obtain ⟨front, last, h⟩ := exists_last x xs
  exact ⟨front, last, by rw [List.concat_eq_append, ← List.cons_append, h, List.append_assoc]; rfl⟩

theorem Block.chomped {v text bs : List Char} {b : Char} (h : Block (ended v) text b bs) :
    text ++ (markedChomping (chompHint v)).tail ⟨[b], bs⟩ = v := by
  obtain ⟨front, c, rfl, hc⟩ := h.last
  have hwhole := h.whole
  cases hlast : v.getLast?.any isBreak with
  | true =>
    -- The line breaks are the text's own: one alone is clipped to itself, several are kept.
    have hv : v = front ++ [c] ++ b :: bs := by simpa [ended, hlast] using hwhole
    rcases List.eq_nil_or_concat bs with rfl | ⟨more, d, rfl⟩
    · have hhint : chompHint v = [] := by
        rw [hv]
        simpa using chompHint_of_break hc (h.breaks b List.mem_cons_self)
      rw [hhint, hv]
      rfl
    · obtain ⟨before, a, hends⟩ := exists_last_two b more d
      have hhint : chompHint v = ['+'] := by
        rw [hv, hends, ← List.append_assoc]
        apply chompHint_of_breaks
        · exact h.breaks a (by rw [hends]; simp)
        · exact h.breaks d (by rw [hends]; simp)
      rw [hhint, hv]
      rfl
  | false =>
    -- The only line break is the one that was put behind the text.
    have hv : v ++ ['\n'] = front ++ [c] ++ b :: bs := by simpa [ended, hlast] using hwhole
    rw [chompHint_of_word hlast]
    rcases List.eq_nil_or_concat bs with rfl | ⟨more, d, rfl⟩
    · have hfront := (List.append_inj' hv rfl).1
      rw [hfront]
      simp [markedChomping, Chomping.tail]
    · obtain ⟨before, a, hends⟩ := exists_last_two b more d
      have hsplit : v ++ ['\n'] = front ++ [c] ++ before ++ [a] ++ [d] := by
        rw [hv, hends]
        simp
      have hfront := (List.append_inj' hsplit rfl).1
      have hbreak : isBreak a = true := h.breaks a (by rw [hends]; simp)
      rw [hfront, List.getLast?_concat] at hlast
      simp [hbreak] at hlast

theorem chompHint_cases (v : List Char) :
    chompHint v = [] ∨ chompHint v = ['-'] ∨ chompHint v = ['+'] := by
  unfold chompHint
  split
  · simp
  · split
    · simp
    · split
      · simp
      · split <;> simp

theorem blockHeader?_eq (v s : List Char) :
    blockHeader? (indentHint v ++ chompHint v ++ '\n' :: s) =
      some (markedChomping (chompHint v), if indentHint v = [] then 0 else 2, '\n' :: s) := by
  have hindent : indentHint v = [] ∨ indentHint v = ['2'] := by
    unfold indentHint
    split <;> simp
  have hchomp := chompHint_cases v
  rcases hindent with hi | hi <;> rcases hchomp with hc | hc | hc <;> rw [hi, hc] <;> rfl

theorem ended_append {w : List Char} (hne : w ≠ []) (bs : List Char) :
    ended (bs ++ w) = bs ++ ended w := by
  obtain ⟨c, cs, rfl⟩ := List.exists_cons_of_ne_nil hne
  obtain ⟨front, last, hlast⟩ := exists_last c cs
  rw [hlast]
  cases hb : isBreak last <;> simp [ended, ← List.append_assoc, hb]

theorem lined_ended {w : List Char} (hne : w ≠ []) (hhead : ∀ c ∈ w.head?, isBreak c = false) :
    Lined (ended w) := by
  obtain ⟨c, cs, rfl⟩ := List.exists_cons_of_ne_nil hne
  unfold ended
  split
  · rename_i hlast
    exact ⟨hne, hhead, fun d hd => by simpa [Option.mem_def.mp hd] using hlast⟩
  · refine ⟨by simp, hhead, fun d hd => ?_⟩
    rw [List.getLast?_concat, Option.mem_some_iff] at hd
    exact hd ▸ rfl

theorem blockBreaks_start {bs w : List Char} (hbs : ∀ c ∈ bs, isBreak c) (hne : w ≠ [])
    (hhead : ∀ c ∈ w.head?, isBreak c = false) (hspecial : hasSpecial (bs ++ w) = false)
    (line : Nat) :
    ∃ deep line', blockBreaks (if indentHint (bs ++ w) = [] then 0 else 2) 0 0 line
        (literalBody true (ended (bs ++ w))) =
          some (bs, deep, ⟨literalBody false (ended w), 2, line'⟩) ∧
      (indentHint (bs ++ w) = [] → deep = 2) := by
  rw [ended_append hne, literalBody_breaks hbs]
  by_cases hhint : indentHint (bs ++ w) = []
  -- Without a hint the first line is not empty and starts with no blank, which shows the margin.
  · cases bs with
    | nil =>
      obtain ⟨c, cs, rfl⟩ := List.exists_cons_of_ne_nil hne
      obtain ⟨ds, hds⟩ : ∃ ds, ended (c :: cs) = c :: ds := by
        unfold ended
        split
        · exact ⟨cs, rfl⟩
        · exact ⟨cs ++ ['\n'], rfl⟩
      have hc : isBreak c = false := hhead c rfl
      have hspace : c ≠ ' ' := by simpa [indentHint, hc] using hhint
      have htab : c ≠ '\t' := by
        rintro rfl
        simp [hasSpecial, isPrintable] at hspecial
      refine ⟨2, line, ?_, fun _ => rfl⟩
      rw [if_pos hhint, hds, literalBody_line hc]
      simp [margin, blockBreaks, literalBody, hc, hspace, htab]
    | cons b bs =>
      simp [indentHint, hbs b List.mem_cons_self] at hhint
  · have hlined := lined_ended hne hhead
    have hcolumn : marginColumn (ended w) = 2 := by simp [marginColumn, hlined.ne_nil]
    obtain ⟨deep, line', h⟩ := blockBreaks_eq hbs hlined.head 0 line
    rw [hcolumn] at h
    exact ⟨deep, line', by rw [if_neg hhint]; exact h, fun hn => absurd hn hhint⟩

theorem block?_eq {v bs : List Char} {deep : Nat} {place c : Cursor}
    (hrest : c.rest = literalWritten v)
    (hstart : blockBreaks (if indentHint v = [] then 0 else 2) 0 0 (c.line + 1)
      (literalBody true (ended v)) = some (bs, deep, place))
    (hdeep : indentHint v = [] → deep = 2) :
    block? true 0 c =
      (blockLines? true 2 ((literalBody true (ended v)).length + 1) ⟨[], bs⟩ false place).map
        fun p => (p.1 ++ (markedChomping (chompHint v)).tail p.2.1, p.2.2) := by
  have hline : (c.moved ('\n' :: literalBody true (ended v))).lineEnd? =
      some ⟨literalBody true (ended v), 0, c.line + 1⟩ := by
    simp [Cursor.lineEnd?, Cursor.skipSpaces, Cursor.moved, Cursor.skipBreak, startsBreak, isBreak,
      isSpace]
  simp only [block?, hrest, literalWritten, blockHeader?_eq, Option.bind_eq_bind,
    Option.bind_some, hline]
  by_cases hhint : indentHint v = []
  · rw [if_pos hhint] at hstart
    simp only [hhint, if_true, hstart, Option.bind_some, hdeep hhint, Option.map_eq_bind]
    rfl
  · have htwo : (2 : Nat) ≠ 0 := by decide
    have hgiven : (max 0 0 : Int).toNat + 2 = 2 := rfl
    rw [if_neg hhint] at hstart
    simp only [hhint, if_false, htwo, hgiven, hstart, Option.bind_some, Option.map_eq_bind]
    rfl

theorem chompHint_of_all {v : List Char} (h : ∀ c ∈ v, isBreak c) (hne : v ≠ []) :
    chompHint v = ['+'] := by
  obtain ⟨c, cs, rfl⟩ := List.exists_cons_of_ne_nil hne
  rcases List.eq_nil_or_concat cs with rfl | ⟨front, b, rfl⟩
  · simp [chompHint, h c]
  · obtain ⟨before, a, hends⟩ := exists_last_two c front b
    rw [hends] at h ⊢
    exact chompHint_of_breaks (h a (by simp)) (h b (by simp))

theorem block?_breaks {v : List Char} (h : ∀ c ∈ v, isBreak c) (hne : v ≠ []) {c : Cursor}
    (hrest : c.rest = literalWritten v) :
    ∃ place, block? true 0 c = some (v, place) ∧ place.rest = [] := by
  have hhint : indentHint v ≠ [] := by
    obtain ⟨b, bs, rfl⟩ := List.exists_cons_of_ne_nil hne
    simp [indentHint, h b List.mem_cons_self]
  have hended : ended v = v ++ [] := by
    obtain ⟨b, bs, rfl⟩ := List.exists_cons_of_ne_nil hne
    obtain ⟨front, last, hlast⟩ := exists_last b bs
    rw [hlast] at h ⊢
    simp [ended, h last]
  obtain ⟨deep, line', hbreaks⟩ := @blockBreaks_eq v [] h (by simp) 0 (c.line + 1)
  have hstart : blockBreaks (if indentHint v = [] then 0 else 2) 0 0 (c.line + 1)
      (literalBody true (ended v)) = some (v, deep, ⟨[], 0, line'⟩) := by
    rw [if_neg hhint, hended, literalBody_breaks h]
    exact hbreaks
  refine ⟨⟨[], 0, line'⟩, ?_, rfl⟩
  rw [block?_eq hrest hstart fun hn => absurd hn hhint, chompHint_of_all h hne]
  simp [blockLines?, markedChomping, Chomping.tail]

theorem block?_literal {v : List Char} (hspecial : hasSpecial v = false) (hne : v ≠ []) {c : Cursor}
    (hrest : c.rest = literalWritten v) :
    ∃ place, block? true 0 c = some (v, place) ∧ place.rest = [] := by
  obtain ⟨bs, w, rfl, hbs, hw⟩ := exists_run isBreak v
  by_cases hempty : w = []
  · subst hempty
    rw [List.append_nil] at hne hrest ⊢
    exact block?_breaks hbs hne hrest
  · obtain ⟨deep, line', hstart, hdeep⟩ :=
      blockBreaks_start hbs hempty hw hspecial (c.line + 1)
    rw [block?_eq hrest hstart hdeep]
    have hlength : (ended w).length < (literalBody true (ended (bs ++ w))).length + 1 := by
      have hle := length_le_literalBody true (ended w)
      rw [ended_append hempty, literalBody_breaks hbs, List.length_append]
      omega
    obtain ⟨text, b, bs', place, hlines, hend, hblock⟩ :=
      blockLines?_eq (lined_ended hempty hw) hlength ⟨[], bs⟩ false line'
    rw [List.nil_append, ← ended_append hempty] at hblock
    refine ⟨place, ?_, hend⟩
    rw [hlines]
    simp [hblock.chomped]

end SceneScript.Yaml
