import SceneScript.Proofs.Script.Headed

namespace SceneScript

open Text Script

structure Choice where
  label : String
  target : String

namespace Choice

structure Writable (o : Choice) : Prop where
  label : ∀ c ∈ o.label.toList, c ≠ '|' ∧ c ≠ '\\' ∧ c ≠ '\n'
  target : ∀ c ∈ o.target.toList, c ≠ '|' ∧ c ≠ ':' ∧ c ≠ ';' ∧ c ≠ '\\' ∧ c ≠ '\n'
  trimmed : Trimmed o.target.toList
  nonempty : o.target ≠ ""
  not_none : o.target ≠ "none"

def written (o : Choice) : List Char :=
  escapeAt separators o.label.toList ++ ':' :: o.target.toList

def shown (o : Choice) : List Char :=
  o.label.toList ++ ':' :: o.target.toList

/-- What stands behind the first colon of the option, which may be one of its label. -/
def reached (o : Choice) : List Char :=
  trim (o.shown.dropWhile (· != ':')).tail

variable {o : Choice}

theorem colon_mem_reached (h : ':' ∈ o.label.toList) : ':' ∈ o.reached := by
  obtain ⟨front, back, hlabel, hfront⟩ := List.eq_append_cons_of_mem h
  rw [reached, shown, hlabel, List.append_assoc, List.cons_append, dropWhile_bne_append hfront,
    List.tail_cons]
  exact mem_trim (by simp) (by decide)

theorem Writable.reached_eq_iff (h : o.Writable) :
    o.reached = o.target.toList ↔ ':' ∉ o.label.toList := by
  constructor
  · intro heq hlabel
    exact (h.target ':' (heq ▸ colon_mem_reached hlabel)).2.1 rfl
  · intro hlabel
    rw [reached, shown, dropWhile_bne_append hlabel, List.tail_cons, h.trimmed.trim_eq]

theorem Writable.isAssetName_reached (h : o.Writable) : isAssetName o.reached := by
  simp only [isAssetName, Bool.and_eq_true, Bool.not_eq_true', List.isEmpty_eq_false_iff, bne_iff_ne]
  by_cases hlabel : ':' ∈ o.label.toList
  · have hcolon := colon_mem_reached hlabel
    refine ⟨List.ne_nil_of_mem hcolon, fun hnone => ?_⟩
    rw [hnone] at hcolon
    exact absurd hcolon (by decide)
  · rw [h.reached_eq_iff.mpr hlabel]
    exact ⟨by simpa using h.nonempty, fun hnone => h.not_none (String.toList_inj.mp hnone)⟩

theorem Writable.unescape_written (h : o.Writable) (rest : List Char) :
    unescape (o.written ++ rest) = o.shown ++ unescape rest := by
  have hlabel : '\\' ∉ o.label.toList := fun hm => (h.label _ hm).2.1 rfl
  have htarget : '\\' ∉ ':' :: o.target.toList := by
    simpa using fun hm => (h.target _ hm).2.2.2.1 rfl
  rw [written, shown, List.append_assoc, unescape_escapeAt_append (List.Subset.refl _) hlabel,
    unescape_append htarget, List.append_assoc]

theorem Writable.uncut_written (h : o.Writable) : Uncut ';' o.written := by
  have hlabel : '\\' ∉ o.label.toList := fun hm => (h.label _ hm).2.1 rfl
  have hcolon : Uncut ';' [':'] := uncut_singleton (by decide) (by decide)
  have htarget : Uncut ';' o.target.toList :=
    uncut_of_forall fun c hc => ⟨(h.target c hc).2.2.2.1, (h.target c hc).2.2.1⟩
  exact (uncut_escapeAt (by decide) hlabel).append (hcolon.append htarget)

theorem Writable.newline_not_mem_written (h : o.Writable) : '\n' ∉ o.written := by
  have hlabel : '\n' ∉ escapeAt separators o.label.toList :=
    fun hm => (mem_escapeAt hm).elim (fun hm => (h.label _ hm).2.2 rfl) (by decide)
  have htarget : '\n' ∉ o.target.toList := fun hm => (h.target _ hm).2.2.2.2 rfl
  simp [written, hlabel, htarget]

theorem Writable.endsSolid_written (h : o.Writable) : EndsSolid o.written := by
  intro c hc
  apply h.trimmed.ends c
  obtain ⟨d, target, htarget⟩ := List.exists_cons_of_ne_nil (l := o.target.toList)
    (by simpa using h.nonempty)
  rw [written, htarget] at hc
  rw [htarget]
  simpa [List.getLast?_append] using hc

theorem Writable.bar_not_mem_shown (h : o.Writable) : '|' ∉ o.shown := by
  have hlabel : '|' ∉ o.label.toList := fun hm => (h.label _ hm).1 rfl
  have htarget : '|' ∉ o.target.toList := fun hm => (h.target _ hm).1 rfl
  simp [shown, hlabel, htarget]

end Choice

namespace Script

theorem optionTarget?_cons_blank {c : Char} (hc : isBlank c) (option : List Char) :
    optionTarget? (c :: option) = optionTarget? option := by
  have hcolon : c ≠ ':' := isBlank_ne hc (by decide)
  rw [optionTarget?, optionTarget?, cut?, if_neg hcolon]
  cases cut? ':' option <;> rfl

theorem choiceTargets_dropWhile (content : List Char) :
    choiceTargets (content.dropWhile isBlank) = choiceTargets content := by
  induction content with
  | nil => rfl
  | cons c content ih =>
    by_cases hc : isBlank c
    · have hbar : c ≠ '|' := isBlank_ne hc (by decide)
      obtain ⟨first, rest, hsplit⟩ := List.exists_cons_of_ne_nil (List.splitOn_ne_nil '|' content)
      have hcons : (c :: content).splitOn '|' = (c :: first) :: rest := by
        rw [List.splitOn_cons_eq_if_modifyHead, if_neg (by simpa using hbar), hsplit,
          List.modifyHead_cons]
      rw [List.dropWhile_cons_of_pos hc, ih, choiceTargets, choiceTargets, hcons, hsplit,
        List.filterMap_cons, List.filterMap_cons, optionTarget?_cons_blank hc]
    · rw [List.dropWhile_cons_of_neg hc]

theorem optionTarget?_shown {o : Choice} (h : o.Writable) :
    optionTarget? o.shown = some o.reached := by
  have hcolon : ':' ∈ o.shown := by simp [Choice.shown]
  have hname := h.isAssetName_reached
  rw [Choice.reached] at hname ⊢
  rw [optionTarget?, cut?_eq_some hcolon]
  exact if_pos hname

def choiceBody (options : List Choice) : List Char :=
  ['|'].intercalate (options.map Choice.written)

def choiceLine (options : List Choice) : List Char :=
  headed "choose".toList (choiceBody options)

theorem choiceBody_cons {options : List Choice} (h : options ≠ []) (o : Choice) :
    choiceBody (o :: options) = o.written ++ '|' :: choiceBody options := by
  simp [choiceBody, List.intercalate_cons_of_ne_nil, h]

theorem choiceBody_induction {P : List Char → Prop} (hnil : P [])
    (hbar : ∀ {s t}, P s → P t → P (s ++ '|' :: t)) {options : List Choice}
    (h : ∀ o ∈ options, P o.written) : P (choiceBody options) := by
  induction options with
  | nil => exact hnil
  | cons o options ih =>
    have ho := h o List.mem_cons_self
    by_cases hoptions : options = []
    · subst hoptions
      simpa [choiceBody] using ho
    · rw [choiceBody_cons hoptions]
      exact hbar ho (ih fun p hp => h p (List.mem_cons_of_mem o hp))

section

variable {options : List Choice} (hw : ∀ o ∈ options, o.Writable)

include hw

theorem cutUnescaped?_choiceBody : cutUnescaped? ';' (choiceBody options) = none := by
  have hmark : Uncut ';' ['|'] := uncut_singleton (by decide) (by decide)
  have hbody : Uncut ';' (choiceBody options) :=
    choiceBody_induction (uncut_nil ';') (fun hs ht => hs.append (hmark.append ht))
      fun o ho => (hw o ho).uncut_written
  exact hbody.cutUnescaped?_eq_none

theorem newline_not_mem_choiceBody : '\n' ∉ choiceBody options :=
  choiceBody_induction (P := ('\n' ∉ ·)) List.not_mem_nil (fun hs ht => by simp [hs, ht])
    fun o ho => (hw o ho).newline_not_mem_written

theorem endsSolid_choiceBody : EndsSolid (choiceBody options) := by
  have hnil : EndsSolid [] := fun c hc => by simp at hc
  have hmark : EndsSolid ['|'] := endsSolid_singleton (by decide)
  exact choiceBody_induction hnil (fun hs ht => endsSolid_append hs (endsSolid_append hmark ht))
    fun o ho => (hw o ho).endsSolid_written

theorem unescape_choiceBody :
    unescape (choiceBody options) = ['|'].intercalate (options.map Choice.shown) := by
  induction options with
  | nil => rfl
  | cons o options ih =>
    have ho := hw o List.mem_cons_self
    by_cases hoptions : options = []
    · subst hoptions
      simpa [choiceBody, unescape] using ho.unescape_written []
    · have hrest : options.map Choice.shown ≠ [] := by simpa using hoptions
      rw [choiceBody_cons hoptions, ho.unescape_written, unescape_cons (by decide),
        ih fun p hp => hw p (List.mem_cons_of_mem o hp), List.map_cons,
        List.intercalate_cons_of_ne_nil hrest]
      simp

theorem choiceTargets_shown :
    choiceTargets (['|'].intercalate (options.map Choice.shown)) =
      options.map Choice.reached := by
  have htargets : (options.map Choice.shown).filterMap optionTarget? =
      options.map Choice.reached := by
    rw [List.filterMap_map, ← List.filterMap_eq_map]
    exact List.filterMap_congr fun o ho => optionTarget?_shown (hw o ho)
  by_cases hnil : options = []
  · subst hnil
    rfl
  · have hbar : ∀ l ∈ options.map Choice.shown, '|' ∉ l := by
      intro l hl
      obtain ⟨o, ho, rfl⟩ := List.mem_map.mp hl
      exact (hw o ho).bar_not_mem_shown
    rw [choiceTargets, List.splitOn_intercalate '|' hbar (by simpa using hnil), htargets]

theorem parse_choiceLine_sentences (name base : String) :
    (parse (String.ofList (choiceLine options)) name base).sentences =
      [sentence base.toList 1 .choose "choose".toList (splitArgs (choiceBody options)).1
        (splitArgs (choiceBody options)).2] := by
  have hnewline : '\n' ∉ choiceLine options :=
    newline_not_mem_headed (by decide) (newline_not_mem_choiceBody hw)
  have hplain : ∀ c ∈ "choose".toList, c ≠ '\\' ∧ c ≠ ':' ∧ c ≠ ';' := by simp
  have hcolon : Uncut ':' "choose".toList :=
    uncut_of_forall fun c hc => ⟨(hplain c hc).1, (hplain c hc).2.1⟩
  have hsemicolon : Uncut ';' "choose".toList :=
    uncut_of_forall fun c hc => ⟨(hplain c hc).1, (hplain c hc).2.2⟩
  have hkeyword : Command.ofKeyword? (String.ofList "choose".toList) = some .choose := by decide
  rw [parse_sentences_line hnewline, choiceLine, parseLine_keyword (by decide)
    (trimmed_iff.mpr (by decide)) hcolon hsemicolon (cutUnescaped?_choiceBody hw) hkeyword (by decide)]

variable (hd : ¬[' ', '-'] <:+: choiceLine options)

include hd

theorem splitArgs_choiceBody :
    (splitArgs (choiceBody options)).2 = [] ∧
      choiceTargets (splitArgs (choiceBody options)).1 = options.map Choice.reached := by
  have hsuffix : choiceBody options <:+ choiceLine options :=
    ⟨"choose".toList ++ [':'], by simp [choiceLine, headed]⟩
  have hsplit : splitDash (choiceBody options) = [choiceBody options] :=
    splitDash_of_not_infix fun hi => hd (hi.trans hsuffix.isInfix)
  have hargs : splitArgs (choiceBody options) = (unescape (trim (choiceBody options)), []) := by
    simp [splitArgs, hsplit]
  rw [hargs]
  refine ⟨rfl, ?_⟩
  -- the first label may start with blanks: these are trimmed away, and no target is
  rw [trim_of_endsSolid (endsSolid_choiceBody hw), ← dropWhile_unescape, unescape_choiceBody hw,
    choiceTargets_dropWhile, choiceTargets_shown hw]

/-- The sentence of a choice leads to what stands behind the first colon of each option, which is
its target if and only if there is no colon in its label. -/
theorem parse_choiceLine (name base : String) :
    ∃ x, (parse (String.ofList (choiceLine options)) name base).sentences = [x] ∧
      x.command = .choose ∧
      x.subScenes = options.map (fun o => String.ofList o.reached) ∧
      x.assets.map (fun a => (a.kind, a.name)) =
        options.map (fun o => (AssetKind.scene, String.ofList o.reached)) ∧
      (∀ o ∈ options, String.ofList o.reached = o.target ↔ ':' ∉ o.label.toList) ∧
      (x.subScenes = options.map Choice.target ↔ ∀ o ∈ options, ':' ∉ o.label.toList) := by
  have hreached : ∀ o ∈ options,
      (String.ofList o.reached = o.target ↔ ':' ∉ o.label.toList) := by
    intro o ho
    rw [← (hw o ho).reached_eq_iff, ← String.toList_inj, String.toList_ofList]
  obtain ⟨hargs, htargets⟩ := splitArgs_choiceBody hw hd
  have hscenes : (sentence base.toList 1 .choose "choose".toList (splitArgs (choiceBody options)).1
      (splitArgs (choiceBody options)).2).subScenes =
        options.map fun o => String.ofList o.reached := by
    simp [sentence, sceneNames, contentKind?, htargets]
  refine ⟨_, parse_choiceLine_sentences hw name base, rfl, hscenes, ?_, hreached, ?_⟩
  · simp [sentence, assetNames, contentKind?, htargets, hargs]
  · rw [hscenes, List.map_inj_left]
    exact forall₂_congr hreached

end

def floors : List Choice :=
  [⟨"Up; or: down", "stairs.txt"⟩, ⟨" Stay", "room one.txt"⟩]

theorem parse_choiceLine_floors :
    (∀ o ∈ floors, o.Writable) ∧ ¬[' ', '-'] <:+: choiceLine floors ∧
      String.ofList (choiceLine floors) =
        "choose:Up\\; or\\: down:stairs.txt| Stay:room one.txt" ∧
      ∃ x, (parse (String.ofList (choiceLine floors)) "s" "").sentences = [x] ∧
        x.subScenes = ["down:stairs.txt", "room one.txt"] ∧
        x.subScenes ≠ floors.map Choice.target := by
  have hw : ∀ o ∈ floors, o.Writable := by
    intro o ho
    simp only [floors, List.mem_cons, List.not_mem_nil, or_false] at ho
    rcases ho with rfl | rfl
    · exact ⟨by simp, by simp, trimmed_iff.mpr (by decide +kernel), by decide, by decide⟩
    · exact ⟨by simp, by simp, trimmed_iff.mpr (by decide +kernel), by decide, by decide⟩
  have hd : ¬[' ', '-'] <:+: choiceLine floors := by decide +kernel
  obtain ⟨x, hx, -, hscenes, -, -, htargets⟩ := parse_choiceLine hw hd "s" ""
  refine ⟨hw, hd, by decide +kernel, x, hx, ?_, ?_⟩
  · rw [hscenes]
    decide +kernel
  · rw [ne_eq, htargets]
    decide +kernel

end Script
end SceneScript
