import SceneScript.Proofs.CommandLine.Mapping
import SceneScript.Proofs.Script.Registrations
import SceneScript.Proofs.Session.Reopened

namespace SceneScript

namespace Report

open Text

def stars (s : List Char) : Nat :=
  (lines s).countP fun l => ['*', ' '].isPrefixOf l

theorem stars_cons {l : List Char} (hl : '\n' ∉ l) (s : List Char) :
    stars (l ++ '\n' :: s) = (if ['*', ' '].isPrefixOf l then 1 else 0) + stars s := by
  have hlines : lines (l ++ '\n' :: s) = l :: lines s := by
    rw [lines, List.splitOn_append_cons_self, List.splitOn_eq_singleton hl]
    rfl
  rw [stars, hlines, List.countP_cons, Nat.add_comm, stars]

theorem Style.newline_not_mem_start (style : Style) : '\n' ∉ style.start := by
  cases style <;> decide +kernel

theorem Style.newline_not_mem_resumed (style : Style) {s : List Char} (hs : '\n' ∉ s) :
    '\n' ∉ style.resumed s := by
  fun_induction Style.resumed style s with
  | case1 => exact hs
  | case2 s ih =>
    have hrest : '\n' ∉ s := fun h => hs (by simp [h])
    simp [reset, newline_not_mem_start, ih hrest]
  | case3 c s _ ih =>
    rw [List.mem_cons, not_or] at hs ⊢
    exact ⟨hs.1, ih hs.2⟩

theorem Style.newline_not_mem_paint (colored : Bool) (style : Style) {s : List Char}
    (hs : '\n' ∉ s) : '\n' ∉ style.paint colored s := by
  cases colored with
  | false => exact hs
  | true => simp [paint, reset, newline_not_mem_start, newline_not_mem_resumed style hs]

theorem stars_versions {all : List String} (hall : ∀ v ∈ all, '\n' ∉ v.toList) (colored : Bool)
    (selected : String) : stars (versions colored all (some selected)) = all.count selected := by
  induction all with
  | nil => rfl
  | cons v all ih =>
    obtain ⟨hv, hall⟩ := List.forall_mem_cons.mp hall
    have ih := ih hall
    by_cases hsame : v = selected
    · subst hsame
      have hpainted := Style.newline_not_mem_paint colored .green hv
      have hrow := stars_cons (l := '*' :: ' ' :: Style.green.paint colored v.toList)
        (by simp [hpainted]) (versions colored all (some v))
      rw [ih] at hrow
      simpa [versions, Nat.add_comm] using hrow
    · have hrow := stars_cons (l := ' ' :: ' ' :: v.toList) (by simp [hv])
        (versions colored all (some selected))
      rw [ih] at hrow
      simpa [versions, hsame] using hrow

end Report

namespace Registry

variable {r : Registry} {all : List String} {wanted : Option String} {version : String}

theorem mem_available_of_load (hall : r.available = .ok all) {engine : Engine}
    (h : r.load version = .ok engine) : version ∈ all := by
  by_contra hv
  rw [(available_perm hall).mem_iff] at hv
  simp [load_eq_error_iff.mpr ⟨rfl, hv⟩] at h

theorem head_of_newest (hall : r.available = .ok all) (h : r.newest = .ok version) :
    ∃ others, all = version :: others := by
  obtain ⟨others, havailable⟩ := newest_eq_ok_iff.mp h
  exact ⟨others, Except.ok.inj (hall.symm.trans havailable)⟩

theorem chosenVersion_cases (hall : r.available = .ok all)
    (h : r.chosenVersion wanted = .ok version) :
    (wanted = some version ∧ version ∈ all) ∨
      (∀ v, wanted = some v → v ∉ all) ∧ r.newest = .ok version := by
  cases wanted with
  | none => exact .inr ⟨by simp, h⟩
  | some v =>
    cases hload : r.load v with
    | ok engine =>
      simp only [chosenVersion, hload, Except.isOk, Except.toBool, if_true, Except.ok.injEq] at h
      exact .inl ⟨congrArg some h, h ▸ mem_available_of_load hall hload⟩
    | error e =>
      have hv : v ∉ all := (available_perm hall).mem_iff.not.mpr (load_eq_error_iff.mp hload).2
      refine .inr ⟨fun w hw => Option.some.inj hw ▸ hv, ?_⟩
      simpa [chosenVersion, hload, Except.isOk, Except.toBool] using h

theorem selected_iff (hall : r.available = .ok all) (h : r.chosenVersion wanted = .ok version) :
    (wanted <|> all.head?) = some (wanted.getD version) ∧ version ∈ all ∧
      (wanted.getD version = version ↔ wanted.getD version ∈ all) ∧
      (wanted.getD version ∈ all ↔ ∀ v, wanted = some v → v ∈ all) := by
  obtain ⟨rfl, hv⟩ | ⟨hgone, hnewest⟩ := chosenVersion_cases hall h
  · simp [hv]
  · obtain ⟨others, rfl⟩ := head_of_newest hall hnewest
    cases wanted with
    | none => simp
    | some w =>
      obtain ⟨hne, hothers⟩ := not_or.mp (List.mem_cons.not.mp (hgone w rfl))
      simp [hne, hothers]

theorem builtin_available : builtin.available = .ok [Engine.builtinVersion] := by
  decide +kernel

theorem builtin_version {engine : Engine} (h : builtin.load version = .ok engine) :
    engine.version = version := by
  obtain ⟨front, back, hentries, -⟩ := List.lookup_eq_some_iff.mp (load_eq_ok_iff.mp h)
  have hmem : (version, engine) ∈ builtin.entries := by simp [hentries]
  obtain ⟨rfl, rfl⟩ := Prod.mk.inj (List.mem_singleton.mp hmem)
  rfl

end Registry

namespace CommandLine

section Runs

variable {d : Directory} {config script base : String} {name : Option String}

theorem exists_chosen_of_parseFile {s : Session} (h : parseFile d config script name base = .ok s) :
    ∃ p, Preferences.load d config = .ok p ∧
      Registry.builtin.chosenVersion p.parserVersion = .ok s.engine.version := by
  obtain ⟨opened, text, hopened, rfl⟩ := exists_opened_of_parseFile h
  obtain ⟨p, engine, hload, hengine, rfl⟩ := Session.opened_eq_new hopened
  rw [Registry.choose_eq] at hengine
  obtain ⟨version, hchosen, hengine⟩ := exists_of_bind hengine
  exact ⟨p, hload, hchosen.trans (congrArg _ (Registry.builtin_version hengine).symm)⟩

theorem exists_parseFile_of_shown {elapsed : Duration} {answer : Answer}
    (h : (runParse d config elapsed script name base none).result = .ok answer) :
    ∃ s, parseFile d config script name base = .ok s ∧
      answer = .parsed s.engine.version elapsed s.scene (some s.output) := by
  unfold runParse at h
  cases hparse : parseFile d config script name base with
  | error e => simp [hparse] at h
  | ok s =>
    rw [hparse] at h
    exact ⟨s, rfl, (Except.ok.inj h).symm⟩

theorem listVersions_of_load {p : Preferences} (h : Preferences.load d config = .ok p) :
    listVersions d config = .ok (.versions [Engine.builtinVersion]
      (p.parserVersion <|> some Engine.builtinVersion)) := by
  simp [listVersions, h, Registry.builtin_available, Except.mapError, bind, Except.bind, pure,
    Except.pure]

end Runs

namespace Invocation

theorem ofArguments_versions (json : Bool) :
    ofArguments ((if json then ["--json"] else []) ++ ["versions"]) = .ok ⟨{ json }, .versions⟩ := by
  cases json <;> rfl

theorem ofArguments_parseShown {script : String} (hscript : Form.ofText script = .plain) :
    ofArguments ["--json", "parse", script] =
        .ok ⟨{ json := true }, .parse script none "" none⟩ ∨
      Refused (ofArguments ["--json", "parse", script]) := by
  have hcommand : ofArguments ["--json", "parse", script] =
      (readParse [script]).map (withGlobals { json := true }) :=
    ofArguments_command true (by decide) _
  rw [hcommand, readParse]
  generalize hlevel : (leaf _ _ : Level (Draft ParseDraft)) = level
  have hleaf : level.commands = [] := hlevel ▸ rfl
  have hoperand : level.operands = [ParseDraft.takeScript] := hlevel ▸ rfl
  rw [readLeaf_operand hleaf hoperand hscript, Level.draft_last]
  by_cases hempty : script = ""
  · subst hempty
    exact .inr (((refused_path rfl _).bind _).map _)
  · have htake : ParseDraft.takeScript script { own := {} } =
      .ok { own := { script := some script } } := onOwn_path rfl _ hempty
    exact .inl (by rw [htake]; rfl)

end Invocation

namespace Call

def listing (json : Bool) : Call :=
  ⟨(if json then ["--json"] else []) ++ ["versions"], .zero⟩

def showing (script : String) (elapsed : Duration) : Call :=
  ⟨["--json", "parse", script], elapsed⟩

/-- Where a script can be parsed, the versions can be listed. The selected one is listed, has the
only star and is the one by which the script is parsed; or it is not listed, no line has a star, and
the script is parsed by another. The latter happens only where the preferences name a version that
is not there. The argument that names the script is no option. -/
theorem versions_agree_iff {d : Directory} {script : String} {elapsed : Duration} (colored : Bool)
    (hscript : Form.ofText script = .plain)
    (hshown : ((showing script elapsed).run d).2.status = 0) :
    (∀ json, ((listing json).run d).2.status = 0) ∧
    ∃ (p : Preferences) (all : List String) (selected reported : String) (scene : Scene),
      Preferences.load d (Preferences.defaultPath d.homeText) = .ok p ∧
      Registry.builtin.available = .ok all ∧
      (listing true).output colored d =
        (Json.object [("versions", .array (all.map .string)),
          ("selected", .string selected)]).pretty ++ ['\n'] ∧
      (showing script elapsed).output colored d =
        (Json.object [("parserVersion", .string reported), ("parseTimeMs", elapsed.toJson),
          ("scene", scene.toJson)]).pretty ++ ['\n'] ∧
      reported ∈ all ∧ selected = p.parserVersion.getD reported ∧
      (selected = reported ↔ selected ∈ all) ∧
      Report.stars ((listing false).output colored d) = (if selected ∈ all then 1 else 0) ∧
      (selected ∈ all ↔ ∀ v, p.parserVersion = some v → v ∈ all) := by
  obtain hargs | hrefused := Invocation.ofArguments_parseShown hscript
  · obtain ⟨answer, hanswer⟩ := exists_answer (c := showing script elapsed) hargs hshown
    obtain ⟨s, hs, rfl⟩ := exists_parseFile_of_shown hanswer
    obtain ⟨p, hload, hchosen⟩ := exists_chosen_of_parseFile hs
    have hall := Registry.builtin_available
    obtain ⟨hselected, hreported, hsame, hthere⟩ := Registry.selected_iff hall hchosen
    have hlist (json : Bool) := Invocation.ofArguments_versions json
    have hversions := (listVersions_of_load hload).trans
      (congrArg (fun selected => Except.ok (Answer.versions _ selected)) hselected)
    refine ⟨fun json => status_of_answer (c := listing json) (hlist json) hversions, p,
      [Engine.builtinVersion], p.parserVersion.getD s.engine.version, s.engine.version, s.scene,
      hload, hall, ?_, ?_, hreported, rfl, hsame, ?_, hthere⟩
    · exact output_of_answer (c := listing true) (hlist true) hversions colored
    · exact output_of_answer (c := showing script elapsed) hargs hanswer colored
    · rw [output_of_answer (c := listing false) (hlist false) hversions colored]
      have hnames : ∀ v ∈ [Engine.builtinVersion], '\n' ∉ v.toList := by decide +kernel
      have hnodup : [Engine.builtinVersion].Nodup := List.pairwise_singleton _ _
      exact (Report.stars_versions hnames colored _).trans hnodup.count
  · exact absurd hshown (status_of_refused hrefused d)

def staleVersion : Directory :=
  ⟨[], [(["s.txt"], .file (.text "end")), ([".webgal-playground"], .folder),
    ([".webgal-playground", "config.yaml"], .file (.text "parser-version: 9.9.9\n"))]⟩

theorem versions_agree_iff_stale :
    let shown := showing "s.txt" .zero
    (shown.run staleVersion).2.status = 0 ∧
      ∃ (all : List String) (reported : String) (scene : Scene),
      Registry.builtin.available = .ok all ∧
      (listing true).output false staleVersion =
        (Json.object [("versions", .array (all.map .string)),
          ("selected", .string "9.9.9")]).pretty ++ ['\n'] ∧
      shown.output false staleVersion =
        (Json.object [("parserVersion", .string reported), ("parseTimeMs", Duration.zero.toJson),
          ("scene", scene.toJson)]).pretty ++ ['\n'] ∧
      "9.9.9" ∉ all ∧ "9.9.9" ≠ reported ∧
      Report.stars ((listing false).output false staleVersion) = 0 := by
  intro shown
  have hshown : (shown.run staleVersion).2.status = 0 := by decide +kernel
  have hload : (Preferences.load staleVersion
      (Preferences.defaultPath staleVersion.homeText)).toOption =
        some ⟨.light, false, some "9.9.9"⟩ := by decide +kernel
  obtain ⟨-, p, all, selected, reported, scene, hp, hall, hlisted, hparsed, -, hselected, hsame,
    hstars, -⟩ := versions_agree_iff false rfl hshown
  rw [hp] at hload
  obtain rfl : p = ⟨.light, false, some "9.9.9"⟩ := Option.some.inj hload
  obtain rfl : selected = "9.9.9" := hselected
  have hgone : "9.9.9" ∉ all := by
    obtain rfl := Except.ok.inj (Registry.builtin_available.symm.trans hall)
    decide
  rw [if_neg hgone] at hstars
  exact ⟨hshown, all, reported, scene, hall, hlisted, hparsed, hgone, hsame.not.mpr hgone, hstars⟩

end Call
end CommandLine
end SceneScript
