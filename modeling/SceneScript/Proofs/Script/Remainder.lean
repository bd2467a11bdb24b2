import SceneScript.Proofs.Script.Spoken

namespace SceneScript.Script

open Text

theorem not_infix_of_mem_splitDash {s x : List Char} (h : x ∈ splitDash s) : ¬[' ', '-'] <:+: x := by
  induction s using splitDash.induct generalizing x with
  | case1 =>
    obtain rfl : x = [] := by simpa [splitDash] using h
    simp
  | case2 s ih =>
    rw [splitDash] at h
    rcases List.mem_cons.mp h with rfl | h
    · simp
    · exact ih h
  | case3 c s hc ih =>
    obtain ⟨first, segments, hs⟩ := List.exists_cons_of_ne_nil (splitDash_ne_nil s)
    rw [splitDash.eq_3 _ _ hc, hs, List.modifyHead_cons] at h
    rcases List.mem_cons.mp h with rfl | h
    · rw [List.infix_cons_iff, not_or]
      refine ⟨?_, ih (hs ▸ List.mem_cons_self)⟩
      -- a dash at its start would make the character in front part of a separator
      rintro ⟨rest, hrest⟩
      obtain ⟨hspace, hdash⟩ := List.cons.inj hrest
      have hs := append_flatMap_dashed hs
      rw [← hdash] at hs
      exact hc _ hspace.symm hs.symm
    · exact ih (hs ▸ List.mem_cons_of_mem _ h)

theorem splitDash_dashed {first : List Char} {segments : List (List Char)}
    (h : ∀ x ∈ first :: segments, ¬[' ', '-'] <:+: x) :
    splitDash (first ++ segments.flatMap dashed) = first :: segments := by
  have hsegments : ∀ x ∈ segments, splitDash x = [x] :=
    fun x hx => splitDash_of_not_infix (h x (List.mem_cons_of_mem _ hx))
  rw [splitDash_append_dashed first hsegments,
    splitDash_of_not_infix (h first List.mem_cons_self), List.singleton_append]

theorem flatMap_kept (segments : List (List Char)) :
    segments.flatMap kept = (segments.filter fun x => (arg? x).isNone).flatMap dashed := by
  induction segments with
  | nil => rfl
  | cons x segments ih =>
    rw [List.flatMap_cons, ih, List.filter_cons]
    cases hx : arg? x with
    | none => simp [kept, hx, dashed]
    | some a => simp [kept, hx]

theorem unescape_append_cons {c : Char} (hc : c ∉ separators) (s t : List Char) :
    unescape (s ++ c :: t) = unescape s ++ unescape (c :: t) := by
  have hstop : ∀ r, c :: t ≠ ';' :: r ∧ c :: t ≠ ':' :: r := by
    intro r
    constructor
    · rintro h
      exact hc ((List.cons.inj h).1 ▸ by decide)
    · rintro h
      exact hc ((List.cons.inj h).1 ▸ by decide)
  induction s using unescape.induct with
  | case1 => rfl
  | case2 s ih => simp [unescape, ih]
  | case3 s ih => simp [unescape, ih]
  | case4 d s hsemicolon hcolon ih =>
    have hsemicolon' : ∀ r, d = '\\' → s ++ c :: t = ';' :: r → False := by
      intro r hd hr
      cases s with
      | nil => exact (hstop r).1 hr
      | cons e s => exact hsemicolon s hd (by rw [(List.cons.inj hr).1])
    have hcolon' : ∀ r, d = '\\' → s ++ c :: t = ':' :: r → False := by
      intro r hd hr
      cases s with
      | nil => exact (hstop r).2 hr
      | cons e s => exact hcolon s hd (by rw [(List.cons.inj hr).1])
    rw [List.cons_append, unescape.eq_4 _ _ hsemicolon' hcolon', ih,
      unescape.eq_4 _ _ hsemicolon hcolon, List.cons_append]

theorem unescape_eq_dash {s t : List Char} (h : unescape s = '-' :: t) : ∃ r, s = '-' :: r := by
  unfold unescape at h
  split at h
  · simp at h
  · simp at h
  · simp at h
  · exact ⟨_, by rw [(List.cons.inj h).1]⟩

theorem infix_of_infix_unescape {s : List Char} (h : [' ', '-'] <:+: unescape s) :
    [' ', '-'] <:+: s := by
  have hskip : ∀ {c : Char} {s : List Char}, c ≠ ' ' → [' ', '-'] <:+: c :: s → [' ', '-'] <:+: s := by
    intro c s hc h
    rcases List.infix_cons_iff.mp h with h | h
    · exact absurd (List.cons_prefix_cons.mp h).1.symm hc
    · exact h
  induction s using unescape.induct with
  | case1 => exact h
  | case2 s ih => exact (ih (hskip (by decide) h)).trans ⟨['\\', ';'], [], by simp⟩
  | case3 s ih => exact (ih (hskip (by decide) h)).trans ⟨['\\', ':'], [], by simp⟩
  | case4 c s hsemicolon hcolon ih =>
    rw [unescape.eq_4 _ _ hsemicolon hcolon] at h
    rcases List.infix_cons_iff.mp h with ⟨rest, hrest⟩ | h
    · obtain ⟨rfl, hdash⟩ := List.cons.inj hrest
      obtain ⟨r, rfl⟩ := unescape_eq_dash hdash.symm
      exact ⟨[], r, rfl⟩
    · exact List.infix_cons_iff.mpr (.inr (ih h))

theorem unescape_flatMap_dashed (first : List Char) (segments : List (List Char)) :
    unescape (first ++ segments.flatMap dashed) =
      unescape first ++ (segments.map unescape).flatMap dashed := by
  induction segments generalizing first with
  | nil => simp
  | cons x segments ih =>
    have hx := ih (dashed x)
    have hdashed : unescape (dashed x) = dashed (unescape x) := by
      rw [dashed, unescape_cons (by decide), unescape_cons (by decide), dashed]
    rw [hdashed] at hx
    rw [List.flatMap_cons, List.map_cons, List.flatMap_cons, ← hx]
    exact unescape_append_cons (by decide) _ _

theorem splitDash_unescape (s : List Char) : splitDash (unescape s) = (splitDash s).map unescape := by
  obtain ⟨first, segments, hs⟩ := List.exists_cons_of_ne_nil (splitDash_ne_nil s)
  have hwhole := unescape_flatMap_dashed first segments
  rw [append_flatMap_dashed hs] at hwhole
  rw [hwhole, hs, List.map_cons]
  apply splitDash_dashed
  rw [← List.map_cons, List.forall_mem_map]
  intro x hx hi
  exact not_infix_of_mem_splitDash (hs ▸ hx) (infix_of_infix_unescape hi)

theorem takeWhile_unescape (s : List Char) :
    (unescape s).takeWhile (· != '=') = unescape (s.takeWhile (· != '=')) := by
  have hmem : ∀ {t : List Char}, '=' ∉ t → '=' ∉ unescape t :=
    fun ht hm => ht ((unescape_sublist _).subset hm)
  by_cases h : '=' ∈ s
  · obtain ⟨key, value, rfl, hkey⟩ := List.eq_append_cons_of_mem h
    rw [unescape_append_cons (by decide), unescape_cons (by decide), takeWhile_bne_append hkey,
      takeWhile_bne_append (hmem hkey)]
  · rw [List.takeWhile_eq_self_iff.mpr (bne_of_not_mem h),
      List.takeWhile_eq_self_iff.mpr (bne_of_not_mem (hmem h))]

theorem mem_unescape_of_backslash {s : List Char} (h : '\\' ∈ s) :
    ∃ c ∈ unescape s, c ∈ '\\' :: separators := by
  induction s using unescape.induct with
  | case1 => simp at h
  | case2 s ih => exact ⟨';', List.mem_cons_self, by decide⟩
  | case3 s ih => exact ⟨':', List.mem_cons_self, by decide⟩
  | case4 c s hsemicolon hcolon ih =>
    rw [unescape.eq_4 _ _ hsemicolon hcolon]
    rcases List.mem_cons.mp h with rfl | h
    · exact ⟨_, List.mem_cons_self, List.mem_cons_self⟩
    · obtain ⟨d, hd, hseparator⟩ := ih h
      exact ⟨d, List.mem_cons_of_mem _ hd, hseparator⟩

theorem isKey_trim_unescape (s : List Char) : isKey (trim (unescape s)) = isKey (trim s) := by
  by_cases h : '\\' ∈ s
  · obtain ⟨c, hc, hseparator⟩ := mem_unescape_of_backslash h
    have hnone : ('\\' :: separators).all fun c => !isBlank c && !isKeyCharacter c := by decide
    have hc' := List.all_eq_true.mp hnone c hseparator
    simp only [Bool.and_eq_true, Bool.not_eq_true'] at hc'
    have hwritten : isKey (trim s) = false := by
      rw [← Bool.not_eq_true]
      exact fun hkey => not_mem_of_isKey_trim hkey (by decide) (by decide) h
    have hread : isKey (trim (unescape s)) = false := by
      rw [← Bool.not_eq_true]
      exact fun hkey => not_mem_of_isKey_trim hkey hc'.1 hc'.2 hc
    rw [hwritten, hread]
  · have hplain : unescape s = s := by simpa [unescape] using unescape_append h []
    rw [hplain]

theorem isSome_arg?_unescape (x : List Char) : (arg? (unescape x)).isSome = (arg? x).isSome := by
  rw [arg?_isSome, arg?_isSome, takeWhile_unescape, isKey_trim_unescape]

theorem Spoken.unescape {s : List Char} (h : Spoken s) : Spoken (unescape s) := by
  rw [spoken_iff] at h ⊢
  rw [splitDash_unescape, ← List.map_tail, List.forall_mem_map]
  intro x hx
  rw [← Option.not_isSome_iff_eq_none, isSome_arg?_unescape, h x hx]
  simp

theorem StartsArgument.append_blanks {s blanks : List Char} (h : StartsArgument s)
    (hb : ∀ c ∈ blanks, isBlank c) : StartsArgument (s ++ blanks) := by
  cases h with
  | word hkey => exact .word (by rwa [trim_append_blanks hb])
  | dash rest hkey =>
    rw [List.append_assoc]
    exact .dash (rest ++ blanks) hkey
  | value rest hkey =>
    rw [List.append_assoc]
    exact .value (rest ++ blanks) hkey

theorem Spoken.trim {s : List Char} (h : Spoken s) : Spoken (trim s) := by
  obtain ⟨behind, hs, hbehind⟩ := exists_dropEndWhile isBlank (s.dropWhile isBlank)
  intro front back hsplit hstarts
  apply h (s.takeWhile isBlank ++ front) (back ++ behind) ?_ (hstarts.append_blanks hbehind)
  rw [Text.trim] at hsplit
  rw [hsplit] at hs
  conv => lhs; rw [← List.takeWhile_append_dropWhile (p := isBlank) (l := s), hs]
  simp

def remainder (body : List Char) : List Char :=
  match splitDash body with
  | [] => []
  | first :: segments => first ++ (segments.filter fun x => (arg? x).isNone).flatMap dashed

section

variable {body first : List Char} {segments : List (List Char)}
  (h : splitDash body = first :: segments)

include h

theorem remainder_eq :
    remainder body = first ++ (segments.filter fun x => (arg? x).isNone).flatMap dashed := by
  simp only [remainder, h]

theorem splitArgs_fst : (splitArgs body).1 = unescape (trim (remainder body)) := by
  simp only [splitArgs, h, flatMap_kept, remainder_eq h]

theorem spoken_remainder : Spoken (remainder body) := by
  have hplain : ∀ x ∈ first :: segments.filter fun x => (arg? x).isNone, ¬[' ', '-'] <:+: x := by
    intro x hx
    apply not_infix_of_mem_splitDash (s := body)
    rw [h]
    exact (List.filter_sublist.cons_cons first).subset hx
  rw [spoken_iff, remainder_eq h, splitDash_dashed hplain, List.tail_cons]
  intro x hx
  simpa using (List.mem_filter.mp hx).2

end

/-- A body is its first segment and, with a dash each, the segments behind it. Those of them that
are arguments are all its arguments. What remains without them has the same content and no
arguments, and neither has that content when it is a body itself. -/
theorem splitArgs_remainder (body : List Char) :
    ∃ first segments, splitDash body = first :: segments ∧
      body = first ++ segments.flatMap dashed ∧ (∀ x ∈ first :: segments, ¬[' ', '-'] <:+: x) ∧
      remainder body = first ++ (segments.filter fun x => (arg? x).isNone).flatMap dashed ∧
      (splitArgs body).2 = segments.filterMap arg? ∧
      (splitArgs body).1 = unescape (trim (remainder body)) ∧
      splitArgs (remainder body) = ((splitArgs body).1, []) ∧
      (splitArgs (splitArgs body).1).2 = [] := by
  obtain ⟨first, segments, hs⟩ := List.exists_cons_of_ne_nil (splitDash_ne_nil body)
  have hcontent := splitArgs_fst hs
  have hspoken := spoken_remainder hs
  refine ⟨first, segments, hs, (append_flatMap_dashed hs).symm,
    fun x hx => not_infix_of_mem_splitDash (hs ▸ hx), remainder_eq hs, by simp only [splitArgs, hs],
    hcontent, ?_, ?_⟩
  · rw [splitArgs_of_spoken hspoken, hcontent]
  · rw [hcontent, splitArgs_of_spoken hspoken.trim.unescape]

example : splitArgs " - no, -- I -next - say\\: so -y\\;=1 -y.z= 2 ".toList =
    ("- no, -- I - say: so -y;=1".toList, [⟨"next", .flag true⟩, ⟨"y.z", .number (.whole 2)⟩]) := by
  decide +kernel

end SceneScript.Script
