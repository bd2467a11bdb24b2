import Mathlib.Data.List.DropRight
import SceneScript.Proofs.Script.Headed
import SceneScript.Proofs.Script.ReadBack

namespace SceneScript.Script

open Text

/-- A text behind a dash that is read as an argument: it starts with a key, blanks around it aside,
which ends with the text, before the next dash or before an equals sign. -/
inductive StartsArgument : List Char → Prop
  | word {key : List Char} : isKey (trim key) → StartsArgument key
  | dash {key : List Char} (rest : List Char) : isKey (trim key) →
      StartsArgument (key ++ ' ' :: '-' :: rest)
  | value {key : List Char} (rest : List Char) : isKey (trim key) →
      StartsArgument (key ++ '=' :: rest)

def Spoken (s : List Char) : Prop :=
  ∀ front back, s = front ++ ' ' :: '-' :: back → ¬StartsArgument back

theorem not_mem_of_isKey_trim {c : Char} {key : List Char} (h : isKey (trim key))
    (hb : isBlank c = false) (hc : isKeyCharacter c = false) : c ∉ key := by
  intro hm
  simp [isKeyCharacter_of_mem h (mem_trim hm hb)] at hc

theorem arg?_isSome (segment : List Char) :
    (arg? segment).isSome = isKey (trim (segment.takeWhile (· != '='))) := by
  by_cases hequals : '=' ∈ segment
  · obtain ⟨key, value, rfl, hkey⟩ := List.eq_append_cons_of_mem hequals
    have htrim : trim (key ++ '=' :: value) =
        key.dropWhile isBlank ++ '=' :: dropEndWhile isBlank value := by
      have hstop : ('=' :: value).dropWhile isBlank = '=' :: value :=
        List.dropWhile_cons_of_neg (by decide)
      rw [trim, List.dropWhile_append, hstop, ← dropEndWhile_append_cons (by decide)]
      split
      · rename_i hempty
        rw [List.isEmpty_iff.mp hempty, List.nil_append]
      · rfl
    have hcut : '=' ∉ key.dropWhile isBlank :=
      fun hm => hkey ((List.dropWhile_sublist _).subset hm)
    have hidem : trim (key.dropWhile isBlank) = trim key := by
      rw [trim, List.dropWhile_idempotent, trim]
    simp only [arg?, htrim, cut?_append hcut, hidem, takeWhile_bne_append hkey]
    by_cases hk : isKey (trim key) <;> simp [hk]
  · have hcut : '=' ∉ trim segment := fun hm => hequals ((trim_sublist _).subset hm)
    have htake : segment.takeWhile (· != '=') = segment :=
      List.takeWhile_eq_self_iff.mpr (bne_of_not_mem hequals)
    simp only [arg?, cut?_eq_none hcut, htake]
    by_cases hk : isKey (trim segment) <;> simp [hk]

theorem splitDash_append_cons {s : List Char} (h : '-' ∉ s) {c : Char} (hc : c ≠ '-')
    (t : List Char) : splitDash (s ++ c :: t) = (splitDash (c :: t)).modifyHead (s ++ ·) := by
  induction s with
  | nil =>
    obtain ⟨first, rest, hsplit⟩ := List.exists_cons_of_ne_nil (splitDash_ne_nil (c :: t))
    simp [hsplit]
  | cons d s ih =>
    have hopens : ∀ r, d = ' ' → s ++ c :: t = '-' :: r → False := by
      intro r _ hdash
      cases s with
      | nil => exact hc (List.cons.inj hdash).1
      | cons e s =>
        obtain ⟨rfl, -⟩ := List.cons.inj hdash
        simp at h
    obtain ⟨first, rest, hsplit⟩ := List.exists_cons_of_ne_nil (splitDash_ne_nil (c :: t))
    rw [List.cons_append, splitDash.eq_3 _ _ hopens, ih fun hs => h (List.mem_cons_of_mem d hs),
      hsplit]
    rfl

theorem splitDash_key {key : List Char} (h : isKey (trim key)) : splitDash key = [key] := by
  apply splitDash_of_not_infix
  intro hi
  have hdash : '-' ∈ key := hi.subset (by simp)
  exact not_mem_of_isKey_trim h (by decide) (by decide) hdash

theorem startsArgument_iff {s first : List Char} {segments : List (List Char)}
    (h : splitDash s = first :: segments) : StartsArgument s ↔ (arg? first).isSome := by
  rw [arg?_isSome]
  constructor
  · intro hs
    have hequals : ∀ {key : List Char}, isKey (trim key) → '=' ∉ key := fun hkey =>
      not_mem_of_isKey_trim hkey (by decide) (by decide)
    have htake : ∀ {key : List Char}, isKey (trim key) → key.takeWhile (· != '=') = key :=
      fun hkey => List.takeWhile_eq_self_iff.mpr (bne_of_not_mem (hequals hkey))
    cases hs with
    | word hkey =>
      rw [splitDash_key hkey] at h
      obtain ⟨rfl, -⟩ := List.cons.inj h
      rwa [htake hkey]
    | dash rest hkey =>
      rw [splitDash_append, splitDash_key hkey] at h
      obtain ⟨rfl, -⟩ := List.cons.inj h
      rwa [htake hkey]
    | @value key rest hkey =>
      have hdash : '-' ∉ key := not_mem_of_isKey_trim hkey (by decide) (by decide)
      obtain ⟨second, others, hrest⟩ := List.exists_cons_of_ne_nil (splitDash_ne_nil rest)
      have hvalue : splitDash ('=' :: rest) = ('=' :: second) :: others := by
        rw [splitDash.eq_3 _ _ (by simp), hrest, List.modifyHead_cons]
      rw [splitDash_append_cons hdash (by decide), hvalue, List.modifyHead_cons] at h
      obtain ⟨rfl, -⟩ := List.cons.inj h
      rwa [takeWhile_bne_append (hequals hkey)]
  · intro hkey
    have hs := append_flatMap_dashed h
    rw [← List.takeWhile_append_dropWhile (p := (· != '=')) (l := first), List.append_assoc] at hs
    subst hs
    cases hvalue : first.dropWhile (· != '=') with
    | nil =>
      cases segments with
      | nil => simpa using StartsArgument.word hkey
      | cons second others => exact StartsArgument.dash (second ++ others.flatMap dashed) hkey
    | cons c value =>
      have hstop := List.head?_dropWhile_not (· != '=') first
      have hc : c = '=' := by simpa [hvalue] using hstop
      rw [hc]
      exact StartsArgument.value (value ++ segments.flatMap dashed) hkey

theorem spoken_dash {s : List Char} :
    Spoken (' ' :: '-' :: s) ↔ ¬StartsArgument s ∧ Spoken s := by
  constructor
  · intro h
    exact ⟨h [] s rfl, fun front back hs => h (' ' :: '-' :: front) back (by simp [hs])⟩
  · rintro ⟨hstarts, hs⟩ front back heq
    match front, heq with
    | [], heq =>
      obtain rfl : s = back := by simpa using heq
      exact hstarts
    | [c], heq => simp at heq
    | c :: d :: front, heq =>
      obtain ⟨-, -, hs'⟩ : ' ' = c ∧ '-' = d ∧ s = front ++ ' ' :: '-' :: back := by simpa using heq
      exact hs front back hs'

theorem spoken_cons {c : Char} {s : List Char} (hc : ∀ r, c = ' ' → s = '-' :: r → False) :
    Spoken (c :: s) ↔ Spoken s := by
  constructor
  · exact fun h front back hs => h (c :: front) back (by simp [hs])
  · rintro h front back heq
    cases front with
    | nil => exact (hc back (List.cons.inj heq).1 (List.cons.inj heq).2).elim
    | cons d front => exact h front back (List.cons.inj heq).2

theorem spoken_iff {s : List Char} : Spoken s ↔ ∀ x ∈ (splitDash s).tail, arg? x = none := by
  induction s using splitDash.induct with
  | case1 =>
    have hnil : Spoken [] := fun front back h => by simp at h
    simp [hnil, splitDash]
  | case2 s ih =>
    obtain ⟨first, segments, hsplit⟩ := List.exists_cons_of_ne_nil (splitDash_ne_nil s)
    rw [spoken_dash, ih, splitDash, List.tail_cons, hsplit, startsArgument_iff hsplit]
    simp
  | case3 c s hc ih =>
    obtain ⟨first, segments, hsplit⟩ := List.exists_cons_of_ne_nil (splitDash_ne_nil s)
    rw [spoken_cons hc, ih, splitDash.eq_3 _ _ hc, hsplit]
    simp

theorem length_kept (x : List Char) :
    (kept x).length = if (arg? x).isSome then 0 else (dashed x).length := by
  unfold kept
  split <;> rfl

theorem length_flatMap_kept_le (segments : List (List Char)) :
    (segments.flatMap kept).length ≤ (segments.flatMap dashed).length := by
  induction segments with
  | nil => rfl
  | cons x segments ih =>
    have hx := length_kept x
    rw [List.flatMap_cons, List.flatMap_cons, List.length_append, List.length_append]
    split at hx <;> omega

theorem arg?_eq_none_of_length {segments : List (List Char)}
    (h : (segments.flatMap dashed).length ≤ (segments.flatMap kept).length) :
    ∀ x ∈ segments, arg? x = none := by
  induction segments with
  | nil => simp
  | cons x segments ih =>
    have hx := length_kept x
    have hdashed : (dashed x).length = x.length + 2 := rfl
    have hle := length_flatMap_kept_le segments
    rw [List.flatMap_cons, List.flatMap_cons, List.length_append, List.length_append] at h
    split at hx
    · omega
    · rename_i hnone
      rw [List.forall_mem_cons]
      exact ⟨by simpa using hnone, ih (by omega)⟩

theorem splitArgs_of_spoken {s : List Char} (h : Spoken s) :
    splitArgs s = (unescape (trim s), []) := by
  obtain ⟨first, segments, hsplit⟩ := List.exists_cons_of_ne_nil (splitDash_ne_nil s)
  have hnone : ∀ x ∈ segments, arg? x = none := by
    rwa [spoken_iff, hsplit, List.tail_cons] at h
  have hargs := @splitArgs_eq s first segments [] hsplit hnone (by simp) (by simp)
  simpa using hargs

theorem splitArgs_fst_eq_iff {s : List Char} (ht : Trimmed s) (hb : '\\' ∉ s) :
    (splitArgs s).1 = s ↔ Spoken s := by
  constructor
  · intro h
    obtain ⟨first, segments, hsplit⟩ := List.exists_cons_of_ne_nil (splitDash_ne_nil s)
    have hcontent : (splitArgs s).1.length ≤ (first ++ segments.flatMap kept).length := by
      simp only [splitArgs, hsplit]
      exact ((unescape_sublist _).trans (trim_sublist _)).length_le
    have hlength : s.length = (first ++ segments.flatMap dashed).length := by
      rw [append_flatMap_dashed hsplit]
    -- an argument would leave the content shorter than the text
    rw [h, List.length_append] at hcontent
    rw [List.length_append] at hlength
    rw [spoken_iff, hsplit, List.tail_cons]
    exact arg?_eq_none_of_length (by omega)
  · intro h
    have hplain : unescape s = s := by simpa [unescape] using unescape_append hb []
    rw [splitArgs_of_spoken h, ht.trim_eq, hplain]

structure Speaker (s : String) : Prop where
  nonempty : s ≠ ""
  trimmed : Trimmed s.toList
  not_keyword : ∀ c : Command, c ≠ .comment → s ≠ c.keyword
  plain : ∀ c ∈ s.toList, c ≠ '\\' ∧ c ≠ '\n'

def writtenSpeaker (s : String) : List Char :=
  escapeAt separators s.toList

def spokenLine (speaker : String) (body : List Char) : List Char :=
  headed (writtenSpeaker speaker) body

section

variable {speaker : String} (hs : Speaker speaker)

include hs

theorem backslash_not_mem_speaker : '\\' ∉ speaker.toList :=
  fun hm => (hs.plain _ hm).1 rfl

theorem writtenSpeaker_eq_iff :
    writtenSpeaker speaker = speaker.toList ↔ ∀ c ∈ speaker.toList, c ∉ separators := by
  constructor
  · intro heq c hc hseparator
    have hslash := backslash_mem_escapeAt hc hseparator
    rw [← writtenSpeaker, heq] at hslash
    exact backslash_not_mem_speaker hs hslash
  · exact escapeAt_eq_self

theorem ofKeyword?_writtenSpeaker :
    Command.ofKeyword? (String.ofList (writtenSpeaker speaker)) = none := by
  apply ofKeyword?_eq_none
  intro c hc heq
  have hwritten : writtenSpeaker speaker = c.keyword.toList := by
    rw [← heq, String.toList_ofList]
  have hplain := (Head.keyword hc).parts.2.2
  -- a keyword has no backslash, so the speaker would be the keyword itself
  have hfree : ∀ d ∈ speaker.toList, d ∉ separators := by
    intro d hd hseparator
    have hslash := backslash_mem_escapeAt hd hseparator
    rw [← writtenSpeaker, hwritten] at hslash
    exact (hplain _ hslash).2.2.1 rfl
  rw [(writtenSpeaker_eq_iff hs).mpr hfree] at hwritten
  exact hs.not_keyword c hc (String.toList_inj.mp hwritten)

theorem parse_spokenLine_sentences {body : List Char} (hbody : cutUnescaped? ';' body = none)
    (hnewline : '\n' ∉ body) (name base : String) :
    (parse (String.ofList (spokenLine speaker body)) name base).sentences =
      [sentence base.toList 1 .say (writtenSpeaker speaker) (splitArgs body).1
        (settleSpeaker
          (⟨"speaker", .text (String.ofList (writtenSpeaker speaker))⟩ :: (splitArgs body).2))] := by
  have hslash := backslash_not_mem_speaker hs
  have hne : writtenSpeaker speaker ≠ [] := escapeAt_ne_nil (by simpa using hs.nonempty)
  have htrimmed : Trimmed (writtenSpeaker speaker) := by
    rw [trimmed_iff, writtenSpeaker, trim_escapeAt (List.Subset.refl _), hs.trimmed.trim_eq]
  have hhead : '\n' ∉ writtenSpeaker speaker :=
    fun hm => (mem_escapeAt hm).elim (fun hm => (hs.plain _ hm).2 rfl) (by decide)
  have hline : '\n' ∉ spokenLine speaker body := newline_not_mem_headed hhead hnewline
  rw [parse_sentences_line hline, spokenLine, parseLine_speaker hne htrimmed
    (uncut_escapeAt (by decide) hslash) (uncut_escapeAt (by decide) hslash) hbody
    (ofKeyword?_writtenSpeaker hs)]

/-- In a line without arguments the content loses the backslashes in front of its separators, but
the speaker keeps them. So it is the speaker that was meant if and only if that has no separators.
-/
theorem parse_spokenLine {body : List Char} (hbody : Shielded ';' body) (hnewline : '\n' ∉ body)
    (hspoken : Spoken body) (name base : String) :
    ∃ x, (parse (String.ofList (spokenLine speaker body)) name base).sentences = [x] ∧
      x.command = .say ∧
      x.content = String.ofList (unescape (trim body)) ∧
      x.args = [⟨"speaker", .text (String.ofList (writtenSpeaker speaker))⟩] ∧
      unescape (writtenSpeaker speaker) = speaker.toList ∧
      (x.arg? "speaker" = some (.text speaker) ↔ ∀ c ∈ speaker.toList, c ∉ separators) := by
  have hargs := splitArgs_of_spoken hspoken
  have hspeaker : settleSpeaker
      [⟨"speaker", .text (String.ofList (writtenSpeaker speaker))⟩] =
        [⟨"speaker", .text (String.ofList (writtenSpeaker speaker))⟩] :=
    settleSpeaker_cons rfl (by simp)
  have hmeant : unescape (writtenSpeaker speaker) = speaker.toList := by
    have hu := unescape_escapeAt_append (List.Subset.refl _) (backslash_not_mem_speaker hs) []
    simpa [unescape, writtenSpeaker] using hu
  refine ⟨_, parse_spokenLine_sentences hs hbody.cutUnescaped?_eq_none hnewline name base, rfl,
    ?_, ?_, hmeant, ?_⟩
  · simp only [hargs, sentence]
  · simp only [hargs, sentence, hspeaker]
  · rw [← writtenSpeaker_eq_iff hs]
    simp [hargs, sentence, hspeaker, Sentence.arg?, ← String.toList_inj]

/-- The content of a line is what is said if and only if no dash in it stands before an argument.
Then the speaker is the only argument. -/
theorem parse_punctuated {content : String} (hfree : ∀ c ∈ speaker.toList, c ∉ separators)
    (ht : Trimmed content.toList) (hplain : ∀ c ∈ content.toList, c ≠ ';' ∧ c ≠ '\\' ∧ c ≠ '\n')
    (name base : String) :
    ∃ x, (parse (speaker ++ ":" ++ content) name base).sentences = [x] ∧
      x.command = .say ∧
      (x.content = content ↔ Spoken content.toList) ∧
      (Spoken content.toList → x.args = [⟨"speaker", .text speaker⟩]) := by
  have hwritten := (writtenSpeaker_eq_iff hs).mpr hfree
  have hline : speaker ++ ":" ++ content = String.ofList (spokenLine speaker content.toList) := by
    rw [← String.toList_inj]
    simp [spokenLine, headed, hwritten]
  have hbody : cutUnescaped? ';' content.toList = none := by
    apply Uncut.cutUnescaped?_eq_none
    exact uncut_of_forall fun c hc => ⟨(hplain c hc).2.1, (hplain c hc).1⟩
  have hnewline : '\n' ∉ content.toList := fun hm => (hplain _ hm).2.2 rfl
  have hslash : '\\' ∉ content.toList := fun hm => (hplain _ hm).2.1 rfl
  rw [hline]
  refine ⟨_, parse_spokenLine_sentences hs hbody hnewline name base, rfl, ?_, fun hspoken => ?_⟩
  · rw [← splitArgs_fst_eq_iff ht hslash, ← String.toList_inj]
    simp only [sentence, String.toList_ofList]
  · simp only [sentence, splitArgs_of_spoken hspoken, hwritten, String.ofList_toList]
    exact settleSpeaker_cons rfl (by simp)

end

theorem parse_spokenLine_doctor :
    Speaker "Dr: Who; jr" ∧ Shielded ';' " it is 9: run\\; - or stay put ".toList ∧
      Spoken " it is 9: run\\; - or stay put ".toList ∧
      ∃ x, (parse (String.ofList
          (spokenLine "Dr: Who; jr" " it is 9: run\\; - or stay put ".toList)) "s" "").sentences = [x] ∧
        x.content = "it is 9: run; - or stay put" ∧
        x.args = [⟨"speaker", .text "Dr\\: Who\\; jr"⟩] ∧
        x.arg? "speaker" ≠ some (.text "Dr: Who; jr") := by
  have hs : Speaker "Dr: Who; jr" := by
    refine ⟨by decide, trimmed_iff.mpr (by decide +kernel), fun c _ => ?_, by simp⟩
    cases c <;> decide
  have hbody : Shielded ';' " it is 9: run\\; - or stay put ".toList := by decide +kernel
  have hsegments : (splitDash " it is 9: run\\; - or stay put ".toList).tail.all
      (arg? · |>.isNone) := by decide +kernel
  have hspoken : Spoken " it is 9: run\\; - or stay put ".toList :=
    spoken_iff.mpr fun x hx => by simpa using List.all_eq_true.mp hsegments x hx
  obtain ⟨x, hx, -, hcontent, hargs, -, hmeant⟩ :=
    parse_spokenLine hs hbody (by decide +kernel) hspoken "s" ""
  refine ⟨hs, hbody, hspoken, x, hx, ?_, ?_, ?_⟩
  · rw [hcontent]
    decide +kernel
  · rw [hargs]
    decide +kernel
  · rw [ne_eq, hmeant]
    exact fun hfree => hfree ':' (by simp) (by decide)

theorem parse_punctuated_farewell :
    Speaker "Ann" ∧ (∀ c ∈ "Ann".toList, c ∉ separators) ∧
      Trimmed "so -- what? - I think".toList ∧ Trimmed "hello - goodbye".toList ∧
      (∃ x, (parse ("Ann" ++ ":" ++ "so -- what? - I think") "s" "").sentences = [x] ∧
        x.content = "so -- what? - I think" ∧ x.args = [⟨"speaker", .text "Ann"⟩]) ∧
      ∃ x, (parse ("Ann" ++ ":" ++ "hello - goodbye") "s" "").sentences = [x] ∧
        x.content ≠ "hello - goodbye" := by
  have hs : Speaker "Ann" := by
    refine ⟨by decide, trimmed_iff.mpr (by decide), fun c _ => ?_, by simp⟩
    cases c <;> decide
  have hfree : ∀ c ∈ "Ann".toList, c ∉ separators := by simp [separators]
  have hkept : Trimmed "so -- what? - I think".toList := trimmed_iff.mpr (by decide +kernel)
  have hlost : Trimmed "hello - goodbye".toList := trimmed_iff.mpr (by decide +kernel)
  have hspoken : Spoken "so -- what? - I think".toList := by
    have hsegments : (splitDash "so -- what? - I think".toList).tail.all (arg? · |>.isNone) := by
      decide +kernel
    exact spoken_iff.mpr fun x hx => by simpa using List.all_eq_true.mp hsegments x hx
  have hword : StartsArgument " goodbye".toList := .word (by decide +kernel)
  obtain ⟨x, hx, -, hcontent, hargs⟩ := parse_punctuated hs hfree hkept (by simp) "s" ""
  obtain ⟨y, hy, -, hcut, -⟩ := parse_punctuated hs hfree hlost (by simp) "s" ""
  refine ⟨hs, hfree, hkept, hlost, ⟨x, hx, hcontent.mpr hspoken, hargs hspoken⟩, y, hy, ?_⟩
  rw [ne_eq, hcut]
  exact fun h => h "hello".toList " goodbye".toList rfl hword

end SceneScript.Script
