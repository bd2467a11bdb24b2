import SceneScript.Proofs.Script.Concatenation
import SceneScript.Proofs.Script.Spoken

namespace SceneScript.Script

open Text

def writtenArgs (body : List Char) : List Arg :=
  (splitDash body).tail.filterMap arg?

theorem splitArgs_snd (body : List Char) : (splitArgs body).2 = writtenArgs body := by
  obtain ⟨first, segments, hs⟩ := List.exists_cons_of_ne_nil (splitDash_ne_nil body)
  simp only [splitArgs, writtenArgs, hs, List.tail_cons]

/-- A line with its head and its body: the statement in front of the first unescaped semicolon has
them on the sides of its first unescaped colon, or it has no head. -/
inductive Phrased : List Char → Option (List Char) → List Char → Prop
  | headed {statement tail front body : List Char} : Shielded ';' statement →
      Ends statement tail → trim statement = front ++ ':' :: body → Shielded ':' front →
      slashes front % 2 = 0 → Phrased (statement ++ tail) (some (trim front)) body
  | bare {statement tail : List Char} : Shielded ';' statement → Ends statement tail →
      Shielded ':' (trim statement) → Phrased (statement ++ tail) none (trim statement)

theorem exists_phrased (line : List Char) : ∃ head body, Phrased line head body := by
  obtain ⟨statement, tail, rfl, hs, ht⟩ := exists_statement line
  obtain hbare | ⟨front, body, hstatement, hfront, heven⟩ := exists_shielded ':' (trim statement)
  · exact ⟨_, _, .bare hs ht hbare⟩
  · exact ⟨_, _, .headed hs ht hstatement hfront heven⟩

structure NamesSpeaker (head : List Char) : Prop where
  nonempty : head ≠ []
  not_keyword : ∀ c : Command, c ≠ .comment → String.ofList head ≠ c.keyword

inductive SpokenBy (args : List Arg) (head : Option (List Char)) : Option ArgValue → Prop
  | argument {front back : List Arg} {value : ArgValue} : args = front ++ ⟨"speaker", value⟩ :: back →
      (∀ a ∈ back, a.key ≠ "speaker") → SpokenBy args head (some value)
  | head {name : List Char} : (∀ a ∈ args, a.key ≠ "speaker") → head = some name →
      NamesSpeaker name → SpokenBy args head (some (.text (String.ofList name)))
  | nobody : (∀ a ∈ args, a.key ≠ "speaker") → (∀ name, head = some name → ¬NamesSpeaker name) →
      SpokenBy args head none

def spokenArgs (speaker : Option ArgValue) (args : List Arg) : List Arg :=
  (speaker.map (Arg.mk "speaker")).toList ++ args.filter (·.key != "speaker")

theorem exists_last_speaker (args : List Arg) :
    (∀ a ∈ args, a.key ≠ "speaker") ∨ ∃ front value back,
      args = front ++ ⟨"speaker", value⟩ :: back ∧ ∀ a ∈ back, a.key ≠ "speaker" := by
  induction args with
  | nil => exact .inl (by simp)
  | cons a args ih =>
    obtain hnone | ⟨front, value, back, rfl, hback⟩ := ih
    · obtain ⟨key, value⟩ := a
      by_cases hkey : key = "speaker"
      · exact .inr ⟨[], value, args, by rw [hkey]; rfl, hnone⟩
      · exact .inl (List.forall_mem_cons.mpr ⟨hkey, hnone⟩)
    · exact .inr ⟨a :: front, value, back, rfl, hback⟩

theorem filter_speaker_of_not_mem {args : List Arg} (h : ∀ a ∈ args, a.key ≠ "speaker") :
    args.filter (·.key != "speaker") = args := by
  rw [List.filter_eq_self]
  intro a ha
  simpa using h a ha

theorem settleSpeaker_append (front : List Arg) (value : ArgValue) {back : List Arg}
    (h : ∀ a ∈ back, a.key ≠ "speaker") :
    settleSpeaker (front ++ ⟨"speaker", value⟩ :: back) =
      spokenArgs (some value) (front ++ ⟨"speaker", value⟩ :: back) := by
  have hback : back.filter (fun a => a.key == "speaker") = [] := by
    rw [List.filter_eq_nil_iff]
    intro a ha
    simpa using h a ha
  simp [settleSpeaker, spokenArgs, hback, List.filter_append, bne]

theorem settleSpeaker_unnamed {head : Option (List Char)} (args : List Arg)
    (h : ∀ name, head = some name → ¬NamesSpeaker name) :
    ∃ speaker, SpokenBy args head speaker ∧ settleSpeaker args = spokenArgs speaker args := by
  obtain hnone | ⟨front, value, back, rfl, hback⟩ := exists_last_speaker args
  · refine ⟨none, .nobody hnone h, ?_⟩
    rw [settleSpeaker_of_not_mem hnone]
    exact (filter_speaker_of_not_mem hnone).symm
  · exact ⟨some value, .argument rfl hback, settleSpeaker_append front value hback⟩

theorem settleSpeaker_named {name : List Char} (args : List Arg) (h : NamesSpeaker name) :
    ∃ speaker, SpokenBy args (some name) speaker ∧
      settleSpeaker (⟨"speaker", .text (String.ofList name)⟩ :: args) = spokenArgs speaker args := by
  obtain hnone | ⟨front, value, back, rfl, hback⟩ := exists_last_speaker args
  · refine ⟨some (.text (String.ofList name)), .head hnone rfl h, ?_⟩
    rw [settleSpeaker_cons rfl hnone, spokenArgs, filter_speaker_of_not_mem hnone]
    rfl
  · refine ⟨some value, .argument rfl hback, ?_⟩
    have hsettled :=
      settleSpeaker_append (⟨"speaker", .text (String.ofList name)⟩ :: front) value hback
    simpa [spokenArgs] using hsettled

theorem namesSpeaker_iff {head : List Char} :
    NamesSpeaker head ↔ head ≠ [] ∧ Command.ofKeyword? (String.ofList head) = none := by
  constructor
  · exact fun h => ⟨h.nonempty, ofKeyword?_eq_none h.not_keyword⟩
  · rintro ⟨hne, hnone⟩
    refine ⟨hne, fun c hc hkeyword => ?_⟩
    rw [hkeyword, ofKeyword?_keyword hc] at hnone
    simp at hnone

theorem parseLine_say {base line body : List Char} {number : Nat} {head : Option (List Char)}
    (h : Phrased line head body) (hsay : (parseLine base number line).command = .say) :
    ∃ speaker, SpokenBy (writtenArgs body) head speaker ∧
      (parseLine base number line).args = spokenArgs speaker (writtenArgs body) := by
  cases h with
  | @headed statement tail front body hs ht hstatement hfront heven =>
    have hcut := hfront.cutUnescaped?_eq_some heven (by decide) body
    have hempty : (front ++ ':' :: body).isEmpty = false := by simp
    simp only [parseLine, cutComment_statement hs ht, hstatement, hempty, Bool.false_eq_true,
      if_false, resolve, hcut, splitArgs_snd] at hsay ⊢
    cases hk : Command.ofKeyword? (String.ofList (trim front)) with
    | some c =>
      simp only [hk] at hsay ⊢
      have hunnamed : ∀ name, some (trim front) = some name → ¬NamesSpeaker name := by
        rintro name hname hnames
        rw [← Option.some.inj hname, namesSpeaker_iff, hk] at hnames
        simp at hnames
      obtain rfl : c = .say := hsay
      exact settleSpeaker_unnamed (writtenArgs body) hunnamed
    | none =>
      simp only [hk] at hsay ⊢
      by_cases hhead : trim front = []
      · have hunnamed : ∀ name, some (trim front) = some name → ¬NamesSpeaker name :=
          fun name hname hnames => hnames.nonempty (by rw [← Option.some.inj hname, hhead])
        simpa [sentence, hhead] using settleSpeaker_unnamed (writtenArgs body) hunnamed
      · have hnames : NamesSpeaker (trim front) := namesSpeaker_iff.mpr ⟨hhead, hk⟩
        simpa [sentence, hhead] using settleSpeaker_named (writtenArgs body) hnames
  | @bare statement tail hs ht hbare =>
    have hunnamed : ∀ name, none = some name → ¬NamesSpeaker name := by simp
    simp only [parseLine, cutComment_statement hs ht, resolve, hbare.cutUnescaped?_eq_none,
      splitArgs_snd] at hsay ⊢
    split at hsay
    · simp at hsay
    · rename_i hempty
      rw [if_neg hempty]
      cases hk : Command.ofKeyword? (String.ofList (splitArgs (trim statement)).1) with
      | some c =>
        simp only [hk] at hsay ⊢
        obtain rfl : c = .say := hsay
        exact settleSpeaker_unnamed _ hunnamed
      | none =>
        simp only [hk] at hsay ⊢
        exact settleSpeaker_unnamed _ hunnamed

theorem eq_zero_of_speaker {speaker : Option ArgValue} {args : List Arg} {i : Nat} {a : Arg}
    (ha : (spokenArgs speaker args)[i]? = some a) (hkey : a.key = "speaker") : i = 0 := by
  have hothers : ∀ b ∈ args.filter (·.key != "speaker"), b.key ≠ "speaker" :=
    fun b hb => by simpa using (List.mem_filter.mp hb).2
  cases speaker with
  | none => exact absurd hkey (hothers a (List.mem_of_getElem? ha))
  | some value =>
    cases i with
    | zero => rfl
    | succ i => exact absurd hkey (hothers a (List.mem_of_getElem? ha))

/-- A spoken line has one speaker at most, in front of the other arguments. These are the arguments
that are written in its body, in their order. -/
theorem parse_spokenArgs {text : String} {n : Nat} {line : List Char}
    (hline : (lines text.toList)[n]? = some line) (name base : String) :
    ∃ x, (parse text name base).sentences[n]? = some x ∧
      (∃ head body, Phrased line head body) ∧
      (x.command = .say → (∀ i a, x.args[i]? = some a → a.key = "speaker" → i = 0) ∧
        ∀ head body, Phrased line head body → ∃ speaker, SpokenBy (writtenArgs body) head speaker ∧
          x.args = (speaker.map (Arg.mk "speaker")).toList ++
            (writtenArgs body).filter (·.key != "speaker")) := by
  have hx : (parse text name base).sentences[n]? = some (parseLine base.toList (1 + n) line) := by
    simp only [parse, parseLines_getElem?, hline, Option.map_some,
      parseLine_of_reading (reading_dropEndWhile line)]
  refine ⟨_, hx, exists_phrased line, fun hsay => ⟨fun i a ha hkey => ?_, fun head body h => ?_⟩⟩
  · obtain ⟨head, body, h⟩ := exists_phrased line
    obtain ⟨speaker, -, hargs⟩ := parseLine_say h hsay
    rw [hargs] at ha
    exact eq_zero_of_speaker ha hkey
  · exact parseLine_say h hsay

theorem parse_spokenArgs_overridden :
    let body := "hi -next -speaker=C -next=false -speaker".toList
    let line := "A\\:B:hi -next -speaker=C -next=false -speaker ;so:\r".toList
    let text := "end\nA\\:B:hi -next -speaker=C -next=false -speaker ;so:\r"
    let args := [⟨"next", .flag true⟩, ⟨"speaker", .text "C"⟩, ⟨"next", .flag false⟩,
      ⟨"speaker", .flag true⟩]
    (lines text.toList)[1]? = some line ∧ Phrased line (some "A\\:B".toList) body ∧
      writtenArgs body = args ∧ ∃ x, (parse text "s" "").sentences[1]? = some x ∧
        x.args = [⟨"speaker", .flag true⟩, ⟨"next", .flag true⟩, ⟨"next", .flag false⟩] := by
  intro body line text args
  have hline : (lines text.toList)[1]? = some line := by decide +kernel
  have hphrased : Phrased line (some "A\\:B".toList) body :=
    @Phrased.headed "A\\:B:hi -next -speaker=C -next=false -speaker ".toList ";so:\r".toList
      "A\\:B".toList body (by decide +kernel) (.comment _ rfl) (by decide +kernel) (by decide) rfl
  have hwritten : writtenArgs body = args := by decide +kernel
  have hsay : (parse text "s" "").sentences[1]?.map Sentence.command = some .say := by
    decide +kernel
  obtain ⟨x, hx, -, hargs⟩ := parse_spokenArgs hline "s" ""
  rw [hx] at hsay
  obtain ⟨speaker, hspeaker, hargs⟩ := (hargs (Option.some.inj hsay)).2 _ _ hphrased
  rw [hwritten] at hspeaker hargs
  refine ⟨hline, hphrased, hwritten, x, hx, ?_⟩
  have hnamed : ¬∀ a ∈ args, a.key ≠ "speaker" := by simp [args]
  cases hspeaker with
  | @argument front back value hsplit hback =>
    have hsettled := settleSpeaker_append front value hback
    rw [← hsplit] at hsettled
    exact (hargs.trans hsettled.symm).trans (by decide)
  | head hnone => exact absurd hnone hnamed
  | nobody hnone => exact absurd hnone hnamed

end SceneScript.Script
