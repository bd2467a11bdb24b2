import SceneScript.Proofs.Number.Characters
import SceneScript.Proofs.Script.Headed
import SceneScript.Proofs.Script.Segments
import SceneScript.Proofs.Script.Sentences

namespace SceneScript

namespace Text

theorem digits?_natural (n : Nat) : digits? (natural n) = some n := by
  have hd : (natural n).all Char.isDigit = true :=
    List.all_eq_true.mpr fun c hc => isDigit_of_mem_natural hc
  have hn : (natural n).isEmpty = false := by
    rw [List.isEmpty_eq_false_iff]
    exact natural_ne_nil n
  have hv : Nat.ofDigitChars 10 (natural n) 0 = n := Nat.ofDigitChars_toDigits (by decide) (by decide)
  simp [digits?, hd, hn, hv]

theorem integerWithin?_integer {least greatest n : Int} (hl : least ≤ n) (hg : n ≤ greatest) :
    integerWithin? least greatest (integer n) = some n := by
  cases n with
  | ofNat n =>
    obtain ⟨d, ds, hds⟩ := List.exists_cons_of_ne_nil (natural_ne_nil n)
    have hd : d.isDigit := isDigit_of_mem_natural (hds ▸ List.mem_cons_self)
    have hp : d ≠ '+' := by rintro rfl; simp at hd
    have hm : d ≠ '-' := by rintro rfl; simp at hd
    have hr := digits?_natural n
    rw [hds] at hr
    simp only [integer, hds, integerWithin?]
    split
    · rename_i h
      exact absurd (List.cons.inj h).1 hp
    · rename_i h
      exact absurd (List.cons.inj h).1 hm
    · simp_all
  | negSucc n =>
    have hr : (some (Int.negSucc n)).filter (fun n => least ≤ n && n ≤ greatest) =
        some (Int.negSucc n) := by simp [hl, hg]
    simp only [integer, integerWithin?, digits?_natural]
    exact hr

end Text

open Text Script

namespace ArgValue

inductive Writable : ArgValue → Prop
  | flag (b : Bool) : Writable (.flag b)
  | whole {n : Int} : -(twoTo 63 : Int) ≤ n → n ≤ twoTo 63 - 1 → Writable (.number (.whole n))
  | text {s : String} : Trimmed s.toList → '\\' ∉ s.toList → '\n' ∉ s.toList →
      ¬[' ', '-'] <:+: s.toList → ofRaw s.toList = .text s → Writable (.text s)

def written : ArgValue → List Char
  | .text s => escapeSemicolons s.toList
  | v => v.display

theorem ofRaw_of_isNumeral {raw : List Char} {n : Int} (hraw : ∀ c ∈ raw, isNumeral c)
    (hn : integerWithin? (-twoTo 63) (twoTo 63 - 1) raw = some n) :
    ofRaw raw = .number (.whole n) := by
  have hword : ∀ w : List Char, (∃ c ∈ w, isNumeral c = false) → raw ≠ w := by
    rintro w ⟨c, hc, hnot⟩ rfl
    simp [hraw c hc] at hnot
  have ht : raw ≠ "true".toList := hword _ ⟨'t', by decide, by decide⟩
  have hf : raw ≠ "false".toList := hword _ ⟨'f', by decide, by decide⟩
  rw [ofRaw, if_neg ht, if_neg hf, hn]

theorem ofRaw_integer {n : Int} (hl : -(twoTo 63 : Int) ≤ n) (hg : n ≤ twoTo 63 - 1) :
    ofRaw (integer n) = .number (.whole n) :=
  ofRaw_of_isNumeral (fun _ => isNumeral_of_mem_integer) (integerWithin?_integer hl hg)

theorem newline_not_mem_written {v : ArgValue} (h : v.Writable) : '\n' ∉ v.written := by
  cases h with
  | flag b => cases b <;> decide
  | whole => exact fun hn => absurd (isNumeral_of_mem_integer hn) (by decide)
  | text _ _ hn => exact fun hm => (mem_escapeSemicolons hm).elim hn (by decide)

theorem uncut_written {v : ArgValue} (h : v.Writable) : Uncut ';' v.written := by
  cases h with
  | flag b =>
    have hw : (written (.flag b)).all (fun c => c != '\\' && c != ';') := by cases b <;> rfl
    apply uncut_of_forall
    intro c hc
    simpa using List.all_eq_true.mp hw c hc
  | whole =>
    apply uncut_of_forall
    intro c hc
    have hn := isNumeral_of_mem_integer hc
    constructor
    · rintro rfl
      exact absurd hn (by decide)
    · rintro rfl
      exact absurd hn (by decide)
  | text _ hb => exact uncut_escapeSemicolons hb

theorem splitDash_written {v : ArgValue} (h : v.Writable) : splitDash v.written = [v.written] := by
  cases h with
  | flag b => cases b <;> decide
  | whole =>
    apply splitDash_of_not_infix
    intro hi
    have hs := isNumeral_of_mem_integer (hi.subset (List.mem_cons_self))
    exact absurd hs (by decide)
  | text _ _ _ hd =>
    rw [written, splitDash_escapeSemicolons, splitDash_of_not_infix hd]
    rfl

theorem trimmed_written {v : ArgValue} (h : v.Writable) : Trimmed v.written := by
  have hsolid : ∀ {s : List Char}, (∀ c ∈ s, isBlank c = false) → Trimmed s :=
    fun h => ⟨startsSolid_of_forall h, endsSolid_of_forall h⟩
  cases h with
  | flag b =>
    have hw : (written (.flag b)).all (!isBlank ·) := by cases b <;> rfl
    exact hsolid fun c hc => by simpa using List.all_eq_true.mp hw c hc
  | whole => exact hsolid fun c hc => isBlank_of_isNumeral (isNumeral_of_mem_integer hc)
  | text ht =>
    rw [trimmed_iff, written, trim_escapeSemicolons, ht.trim_eq]

theorem ofRaw_written {v : ArgValue} (h : v.Writable) : ofRaw (unescape v.written) = v := by
  have hplain : ∀ {s : List Char}, '\\' ∉ s → ';' ∉ s → unescape s = s := by
    intro s hb hs
    have hu := unescape_escapeSemicolons hb
    rwa [escapeSemicolons_eq_self hs] at hu
  cases h with
  | flag b => cases b <;> decide
  | @whole n hl hg =>
    have hb : '\\' ∉ integer n := fun hm => absurd (isNumeral_of_mem_integer hm) (by decide)
    have hs : ';' ∉ integer n := fun hm => absurd (isNumeral_of_mem_integer hm) (by decide)
    exact (congrArg ofRaw (hplain hb hs)).trans (ofRaw_integer hl hg)
  | text _ hb _ _ hr => rw [written, unescape_escapeSemicolons hb, hr]

end ArgValue

namespace Arg

structure Writable (a : Arg) : Prop where
  key : isKey a.key.toList
  not_speaker : a.key ≠ "speaker"
  value : a.value.Writable

def segment (a : Arg) : List Char :=
  if a.value = .flag true then a.key.toList else a.key.toList ++ '=' :: a.value.written

variable {a : Arg}

theorem Writable.key_ne_nil (h : a.Writable) : a.key.toList ≠ [] := by
  intro hn
  simpa [hn, isKey] using h.key

theorem Writable.not_mem_key (h : a.Writable) {c : Char} (hc : isKeyCharacter c = false) :
    c ∉ a.key.toList := by
  intro hm
  simp [isKeyCharacter_of_mem h.key hm] at hc

theorem Writable.solid_key (h : a.Writable) : ∀ c ∈ a.key.toList, isBlank c = false :=
  fun _ hc => isBlank_of_isKeyCharacter (isKeyCharacter_of_mem h.key hc)

theorem Writable.uncut_key (h : a.Writable) : Uncut ';' a.key.toList := by
  apply uncut_of_forall
  intro c hc
  constructor
  · rintro rfl
    exact h.not_mem_key (by decide) hc
  · rintro rfl
    exact h.not_mem_key (by decide) hc

theorem Writable.uncut_segment (h : a.Writable) : Uncut ';' a.segment := by
  have hequals : Uncut ';' ['='] := uncut_singleton (by decide) (by decide)
  unfold segment
  split
  · exact h.uncut_key
  · exact h.uncut_key.append (hequals.append (ArgValue.uncut_written h.value))

theorem Writable.newline_not_mem_segment (h : a.Writable) : '\n' ∉ a.segment := by
  have hk : '\n' ∉ a.key.toList := h.not_mem_key (by decide)
  unfold segment
  split
  · exact hk
  · simp [hk, ArgValue.newline_not_mem_written h.value]

theorem Writable.trimmed_segment (h : a.Writable) : Trimmed a.segment := by
  have hs : StartsSolid a.key.toList := startsSolid_of_forall h.solid_key
  have he : EndsSolid a.key.toList := endsSolid_of_forall h.solid_key
  have hequals : EndsSolid ['='] := endsSolid_singleton (by decide)
  have hv : EndsSolid a.value.written := (ArgValue.trimmed_written h.value).ends
  unfold segment
  split
  · exact ⟨hs, he⟩
  · exact ⟨startsSolid_append h.key_ne_nil hs, endsSolid_append he (endsSolid_append hequals hv)⟩

theorem Writable.splitDash_segment (h : a.Writable) : splitDash a.segment = [a.segment] := by
  have hspace : ' ' ∉ a.key.toList := h.not_mem_key (by decide)
  unfold segment
  split
  · exact splitDash_of_not_infix fun hi => hspace (hi.subset List.mem_cons_self)
  · have hequals : ' ' ∉ a.key.toList ++ ['='] := by simp [hspace]
    have hsplit := splitDash_append_of_not_mem hequals a.value.written
    rw [ArgValue.splitDash_written h.value] at hsplit
    simpa using hsplit

theorem Writable.arg?_segment (h : a.Writable) : arg? a.segment = some a := by
  have hequals : '=' ∉ a.key.toList := h.not_mem_key (by decide)
  have hkey : trim a.key.toList = a.key.toList :=
    Trimmed.trim_eq ⟨startsSolid_of_forall h.solid_key, endsSolid_of_forall h.solid_key⟩
  have hvalue : trim a.value.written = a.value.written := (ArgValue.trimmed_written h.value).trim_eq
  simp only [arg?, h.trimmed_segment.trim_eq]
  by_cases hv : a.value = .flag true
  · have hs : a.segment = a.key.toList := if_pos hv
    rw [hs, cut?_eq_none hequals]
    simp [h.key, ← hv]
  · have hs : a.segment = a.key.toList ++ '=' :: a.value.written := if_neg hv
    rw [hs, cut?_append hequals]
    simp [hkey, hvalue, h.key, ArgValue.ofRaw_written h.value]

end Arg

namespace Script

/-- The heads of the lines: the keywords of commands, and other texts in which nothing cuts. -/
inductive Head : String → Prop
  | keyword {c : Command} : c ≠ .comment → Head c.keyword
  | plain {s : String} : s ≠ "" → Trimmed s.toList →
      (∀ c ∈ s.toList, c ≠ ':' ∧ c ≠ ';' ∧ c ≠ '\\' ∧ c ≠ '\n') → Head s

/-- A content without backslashes in which no segment is an argument. -/
structure Content (s : String) : Prop where
  trimmed : Trimmed s.toList
  plain : ∀ c ∈ s.toList, c ≠ '\\' ∧ c ≠ '\n'
  no_argument : ∀ x ∈ (splitDash s.toList).tail, arg? x = none

def writtenBody (content : String) (args : List Arg) : List Char :=
  escapeSemicolons content.toList ++ (args.map Arg.segment).flatMap dashed

def writtenLine (head content : String) (args : List Arg) : List Char :=
  head.toList ++ ':' :: writtenBody content args

theorem ofKeyword?_keyword {c : Command} (h : c ≠ .comment) :
    Command.ofKeyword? c.keyword = some c := by
  cases c with
  | comment => exact absurd rfl h
  | _ => decide

theorem Head.parts {head : String} (h : Head head) :
    head ≠ "" ∧ Trimmed head.toList ∧
      ∀ c ∈ head.toList, c ≠ ':' ∧ c ≠ ';' ∧ c ≠ '\\' ∧ c ≠ '\n' := by
  cases h with
  | @keyword c hc =>
    have hn : c.keyword ≠ "" := by cases c <;> decide
    have hw : c.keyword.toList.all isKeyCharacter := by cases c <;> decide
    have hsolid : ∀ d ∈ c.keyword.toList, isBlank d = false :=
      fun d hd => isBlank_of_isKeyCharacter (List.all_eq_true.mp hw d hd)
    refine ⟨hn, ⟨startsSolid_of_forall hsolid, endsSolid_of_forall hsolid⟩, ?_⟩
    intro d hd
    have hk := List.all_eq_true.mp hw d hd
    refine ⟨?_, ?_, ?_, ?_⟩ <;> (rintro rfl; exact absurd hk (by decide))
  | plain hn ht hp => exact ⟨hn, ht, hp⟩

theorem ofKeyword?_eq_none {head : String} (h : ∀ c : Command, c ≠ .comment → head ≠ c.keyword) :
    Command.ofKeyword? head = none := by
  rw [Command.ofKeyword?, List.find?_eq_none]
  intro c _ hc
  simp only [Bool.and_eq_true, bne_iff_ne, beq_iff_eq] at hc
  exact h c hc.1 hc.2.symm

theorem settleSpeaker_of_not_mem {args : List Arg} (h : ∀ a ∈ args, a.key ≠ "speaker") :
    settleSpeaker args = args := by
  have hf : args.filter (fun a => a.key == "speaker") = [] := by
    rw [List.filter_eq_nil_iff]
    intro a ha
    simpa using h a ha
  simp [settleSpeaker, hf]

theorem settleSpeaker_cons {args : List Arg} {speaker : Arg} (hs : speaker.key = "speaker")
    (h : ∀ a ∈ args, a.key ≠ "speaker") : settleSpeaker (speaker :: args) = speaker :: args := by
  have hf : args.filter (fun a => a.key == "speaker") = [] := by
    rw [List.filter_eq_nil_iff]
    intro a ha
    simpa using h a ha
  have hn : args.filter (fun a => !(a.key == "speaker")) = args := by
    rw [List.filter_eq_self]
    intro a ha
    simpa using h a ha
  simp [settleSpeaker, hs, hf, hn]

section

variable {head content : String} {args : List Arg} (hh : Head head) (hc : Content content)
  (ha : ∀ a ∈ args, a.Writable)

include hc ha

theorem uncut_writtenBody : Uncut ';' (writtenBody content args) := by
  have hb : '\\' ∉ content.toList := fun hm => (hc.plain _ hm).1 rfl
  have hdash : Uncut ';' [' ', '-'] :=
    (uncut_singleton (by decide) (by decide)).append (uncut_singleton (by decide) (by decide))
  have hargs : Uncut ';' ((args.map Arg.segment).flatMap dashed) := by
    induction args with
    | nil => exact uncut_nil ';'
    | cons a args ih =>
      have hseg := (ha a List.mem_cons_self).uncut_segment
      exact (hdash.append hseg).append (ih fun b hb => ha b (List.mem_cons_of_mem a hb))
  exact (uncut_escapeSemicolons hb).append hargs

theorem newline_not_mem_writtenBody : '\n' ∉ writtenBody content args := by
  intro hm
  rcases List.mem_append.mp hm with hm | hm
  · rcases mem_escapeSemicolons hm with hm | hm
    · exact (hc.plain _ hm).2 rfl
    · exact absurd hm (by decide)
  · obtain ⟨x, hx, hm⟩ := List.mem_flatMap.mp hm
    obtain ⟨a, haa, rfl⟩ := List.mem_map.mp hx
    have hn := (ha a haa).newline_not_mem_segment
    simp [dashed, hn] at hm

theorem endsSolid_writtenBody : EndsSolid (writtenBody content args) := by
  have hcontent : EndsSolid (escapeSemicolons content.toList) := by
    rw [← hc.trimmed.trim_eq, ← trim_escapeSemicolons]
    exact (trimmed_trim _).ends
  have hdash : ∀ x, x ≠ [] → EndsSolid x → EndsSolid (dashed x) := by
    intro x hx hs c hm
    apply hs c
    obtain ⟨d, x, rfl⟩ := List.exists_cons_of_ne_nil hx
    simpa [dashed] using hm
  have hargs : EndsSolid ((args.map Arg.segment).flatMap dashed) := by
    induction args with
    | nil => exact fun c hm => by simp at hm
    | cons a args ih =>
      have hw := ha a List.mem_cons_self
      have hn : a.segment ≠ [] := by
        unfold Arg.segment
        split
        · exact hw.key_ne_nil
        · simp
      exact endsSolid_append (hdash _ hn hw.trimmed_segment.ends)
        (ih fun b hb => ha b (List.mem_cons_of_mem a hb))
  exact endsSolid_append hcontent hargs

theorem splitArgs_writtenBody :
    splitArgs (writtenBody content args) = (content.toList, args) := by
  have hb : '\\' ∉ content.toList := fun hm => (hc.plain _ hm).1 rfl
  obtain ⟨first, others, hs⟩ := List.exists_cons_of_ne_nil (splitDash_ne_nil content.toList)
  have hsplit : splitDash (escapeSemicolons content.toList) =
      escapeSemicolons first :: others.map escapeSemicolons := by
    rw [splitDash_escapeSemicolons, hs, List.map_cons]
  have hothers : ∀ x ∈ others.map escapeSemicolons, arg? x = none := by
    intro x hx
    obtain ⟨y, hy, rfl⟩ := List.mem_map.mp hx
    have hnone : arg? y = none := hc.no_argument y (by simpa [hs] using hy)
    rw [← Option.isNone_iff_eq_none, ← Option.not_isSome, arg?_escapeSemicolons_isSome, hnone]
    rfl
  have hone : ∀ x ∈ args.map Arg.segment, splitDash x = [x] := by
    intro x hx
    obtain ⟨a, haa, rfl⟩ := List.mem_map.mp hx
    exact (ha a haa).splitDash_segment
  have harg : ∀ x ∈ args.map Arg.segment, (arg? x).isSome := by
    intro x hx
    obtain ⟨a, haa, rfl⟩ := List.mem_map.mp hx
    rw [(ha a haa).arg?_segment]
    rfl
  have hread : (args.map Arg.segment).filterMap arg? = args := by
    clear harg hone
    induction args with
    | nil => rfl
    | cons a args ih =>
      rw [List.map_cons, List.filterMap_cons, (ha a List.mem_cons_self).arg?_segment]
      rw [ih fun b hb => ha b (List.mem_cons_of_mem a hb)]
  rw [writtenBody, splitArgs_eq hsplit hothers hone harg, hread, trim_escapeSemicolons,
    hc.trimmed.trim_eq, unescape_escapeSemicolons hb]

include hh

theorem trimmed_writtenLine : Trimmed (writtenLine head content args) := by
  obtain ⟨hn, ht, -⟩ := hh.parts
  have hcolon : EndsSolid [':'] := endsSolid_singleton (by decide)
  have hne : head.toList ≠ [] := by simpa using hn
  exact ⟨startsSolid_append hne ht.starts,
    endsSolid_append ht.ends (endsSolid_append hcolon (endsSolid_writtenBody hc ha))⟩

theorem cutComment_writtenLine :
    cutComment (writtenLine head content args) = (writtenLine head content args, []) := by
  obtain ⟨-, -, hp⟩ := hh.parts
  have hhead : Uncut ';' head.toList := uncut_of_forall fun c hm => ⟨(hp c hm).2.2.1, (hp c hm).2.1⟩
  exact cutComment_headed hhead (uncut_writtenBody hc ha).cutUnescaped?_eq_none

theorem resolve_writtenLine :
    resolve (writtenLine head content args) =
      match Command.ofKeyword? head with
      | some c => (c, head.toList, content.toList, args)
      | none => (.say, head.toList, content.toList, ⟨"speaker", .text head⟩ :: args) := by
  obtain ⟨hn, ht, hp⟩ := hh.parts
  have hhead : Uncut ':' head.toList := uncut_of_forall fun c hm => ⟨(hp c hm).2.2.1, (hp c hm).1⟩
  have hcut : cutUnescaped? ':' (writtenLine head content args) =
      some (head.toList, writtenBody content args) := cutUnescaped?_headed hhead
  have hne : head.toList.isEmpty = false := by simpa using hn
  simp only [resolve, hcut, ht.trim_eq, splitArgs_writtenBody hc ha, String.ofList_toList, hne]
  cases Command.ofKeyword? head <;> rfl

theorem parse_sentences_writtenLine (name base : String) :
    (parse (String.ofList (writtenLine head content args)) name base).sentences =
      [parseLine base.toList 1 (writtenLine head content args)] := by
  obtain ⟨-, -, hp⟩ := hh.parts
  have hhead : '\n' ∉ head.toList := fun hm => (hp _ hm).2.2.2 rfl
  exact parse_sentences_line
    (newline_not_mem_headed hhead (newline_not_mem_writtenBody hc ha)) name base

/-- The line is read as one sentence, which has the head, the content and the arguments that the
line is written from. -/
theorem parse_writtenLine (name base : String) :
    ∃ x, (parse (String.ofList (writtenLine head content args)) name base).sentences = [x] ∧
      x.commandRaw = head ∧ x.content = content ∧
      (∀ c : Command, c ≠ .comment → head = c.keyword → x.command = c ∧ x.args = args) ∧
      ((∀ c : Command, c ≠ .comment → head ≠ c.keyword) →
        x.command = .say ∧ x.args = ⟨"speaker", .text head⟩ :: args) := by
  have hplain : ∀ a ∈ args, a.key ≠ "speaker" := fun a haa => (ha a haa).not_speaker
  have hempty : (writtenLine head content args).isEmpty = false := by
    simp [writtenLine]
  refine ⟨_, parse_sentences_writtenLine hh hc ha name base, ?_⟩
  simp only [parseLine, cutComment_writtenLine hh hc ha, (trimmed_writtenLine hh hc ha).trim_eq,
    hempty, Bool.false_eq_true, if_false, resolve_writtenLine hh hc ha]
  cases hk : Command.ofKeyword? head with
  | none =>
    have hspeaker : settleSpeaker (⟨"speaker", .text head⟩ :: args) =
        ⟨"speaker", .text head⟩ :: args := settleSpeaker_cons rfl hplain
    refine ⟨String.ofList_toList, String.ofList_toList, ?_, fun _ => ⟨rfl, hspeaker⟩⟩
    rintro c hne rfl
    simp [ofKeyword?_keyword hne] at hk
  | some c =>
    refine ⟨String.ofList_toList, String.ofList_toList, ?_, ?_⟩
    · rintro d hne rfl
      rw [ofKeyword?_keyword hne, Option.some.injEq] at hk
      subst hk
      refine ⟨rfl, ?_⟩
      simp only [sentence]
      split
      · exact settleSpeaker_of_not_mem hplain
      · rfl
    · intro hnone
      simp [ofKeyword?_eq_none hnone] at hk

end

def dashes : String := "well; I -- no - stop: a=b"

def settings : List Arg :=
  [⟨"next", .flag true⟩, ⟨"x.y", .number (.whole (-5))⟩, ⟨"vocal", .text "a;b=c"⟩]

theorem parse_writtenLine_dashes :
    Head "Ann" ∧ Head "wait" ∧ Content dashes ∧ (∀ a ∈ settings, a.Writable) ∧
      String.ofList (writtenLine "Ann" dashes settings) =
        "Ann:well\\; I -- no - stop: a=b -next -x.y=-5 -vocal=a\\;b=c" ∧
      (∃ x, (parse (String.ofList (writtenLine "Ann" dashes settings)) "s" "").sentences = [x] ∧
        x.command = .say ∧ x.args = ⟨"speaker", .text "Ann"⟩ :: settings) ∧
      ∃ x, (parse (String.ofList (writtenLine "wait" dashes settings)) "s" "").sentences = [x] ∧
        x.command = .wait ∧ x.args = settings := by
  have htrimmed : ∀ {s : String}, trim s.toList = s.toList → Trimmed s.toList := trimmed_iff.mpr
  have hann : Head "Ann" := .plain (by decide) (htrimmed (by decide)) (by simp)
  have hwait : Head "wait" := Head.keyword (by decide : Command.wait ≠ .comment)
  have hsegments : (splitDash dashes.toList).tail.all (arg? · |>.isNone) := by decide +kernel
  have hcontent : Content dashes := by
    refine ⟨htrimmed (by decide +kernel), by simp [dashes], fun x hx => ?_⟩
    simpa using List.all_eq_true.mp hsegments x hx
  have hsettings : ∀ a ∈ settings, a.Writable := by
    intro a ha
    simp only [settings, List.mem_cons, List.not_mem_nil, or_false] at ha
    rcases ha with rfl | rfl | rfl
    · exact ⟨by decide, by decide, .flag true⟩
    · exact ⟨by decide, by decide, .whole (by decide) (by decide)⟩
    · exact ⟨by decide, by decide, .text (htrimmed (by decide)) (by decide) (by decide)
        (by decide +kernel) (by decide +kernel)⟩
  obtain ⟨x, hx, -, -, -, hspoken⟩ := parse_writtenLine hann hcontent hsettings "s" ""
  obtain ⟨y, hy, -, -, hkeyword, -⟩ := parse_writtenLine hwait hcontent hsettings "s" ""
  refine ⟨hann, hwait, hcontent, hsettings, by decide +kernel, ⟨x, hx, hspoken ?_⟩,
    y, hy, hkeyword .wait (by decide) rfl⟩
  intro c _
  cases c <;> decide

end Script

end SceneScript
