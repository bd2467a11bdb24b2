import SceneScript.Proofs.CommandLine.Call
import SceneScript.Proofs.CommandLine.Reading
import SceneScript.Proofs.Files.ReadBack

namespace SceneScript.CommandLine

section Scenes

variable {d : Directory} {config script base : String} {name : Option String}

theorem exists_opened_of_parseFile {s : Session} (h : parseFile d config script name base = .ok s) :
    ∃ opened text, Session.opened d config .builtin = .ok opened ∧
      s = (opened.withScene (name.getD (sceneName script)) base).setText text := by
  unfold parseFile at h
  obtain ⟨text, -, h⟩ := exists_of_bind h
  obtain ⟨opened, hopened, h⟩ := exists_of_bind h
  refine ⟨opened, text, ?_, (Except.ok.inj h).symm⟩
  cases hopen : Session.opened d config .builtin with
  | error e => simp [hopen, Except.mapError] at hopened
  | ok s => simpa [hopen, Except.mapError] using hopened

theorem output_of_parseFile {s : Session} (h : parseFile d config script name base = .ok s) :
    s.output = String.ofList s.scene.toJson.pretty := by
  obtain ⟨opened, text, -, rfl⟩ := exists_opened_of_parseFile h
  rfl

theorem read_runParse {elapsed : Duration} {out : String} {answer : Answer}
    (h : (runParse d config elapsed script name base (some out)).result = .ok answer) :
    ∃ s, parseFile d config script name base = .ok s ∧
      (runParse d config elapsed script name base (some out)).directory.read out =
        .ok s.output := by
  unfold runParse at h ⊢
  cases hparse : parseFile d config script name base with
  | error e => simp [hparse] at h
  | ok s =>
    refine ⟨s, rfl, ?_⟩
    cases hwrite : d.write out s.output with
    | error cause => simp [hparse, hwrite] at h
    | ok written =>
      simp only [hwrite]
      exact Directory.read_write hwrite

theorem result_locate {file text : String} (h : d.read file = .ok text) (lines : List Nat)
    (elapsed : Duration) : ((Task.locate file lines).run d config elapsed).result =
      .ok (.located (lines.map (located text))) := by
  simp [Task.run, readText, h, Except.mapError, bind, Except.bind, pure, Except.pure]

theorem result_map {s : Session} (h : parseFile d config script none base = .ok s)
    {lines : List Nat} (hlines : lines ≠ []) (elapsed : Duration) :
    ((Task.map script lines base).run d config elapsed).result =
      .ok (.mapped (lines.map (mapped s))) := by
  simp [Task.run, h, linesToMap, hlines, bind, Except.bind, pure, Except.pure]

end Scenes

def nth (items : List Json) : Nat → Json
  | 0 => .null
  | n + 1 => items[n]?.getD .null

theorem nullable_sentence? (scene : Scene) (n : Nat) :
    nullable Sentence.toJson (scene.sentence? n) = nth (scene.sentences.map Sentence.toJson) n := by
  cases n with
  | zero => rfl
  | succ n =>
    simp only [Scene.sentence?, nth, List.getElem?_map]
    cases scene.sentences[n]? <;> rfl

namespace Call

theorem run_of_args {c : Call} {i : Invocation} (h : Invocation.ofArguments c.args = .ok i)
    (d : Directory) :
    c.run d = ((i.run d c.elapsed).directory, .ofResult (i.run d c.elapsed).result) := by
  simp [run, h]

theorem status_of_refused {c : Call} (h : Refused (Invocation.ofArguments c.args))
    (d : Directory) : (c.run d).2.status ≠ 0 := by
  obtain ⟨usage, husage, hstatus⟩ := h
  simpa [run, husage, Ending.status] using hstatus

def output (c : Call) (colored : Bool) (d : Directory) : List Char :=
  match Invocation.ofArguments c.args with
  | .error usage => if usage.status = 0 then usage.message.toList ++ ['\n'] else []
  | .ok i =>
      match (i.run d c.elapsed).result with
      | .ok answer => (answer.printed i.globals.json colored).output
      | .error _ => []

theorem output_of_answer {c : Call} {i : Invocation} {d : Directory} {answer : Answer}
    (h : Invocation.ofArguments c.args = .ok i) (hanswer : (i.run d c.elapsed).result = .ok answer)
    (colored : Bool) : c.output colored d = (answer.printed i.globals.json colored).output := by
  simp [output, h, hanswer]

theorem exists_answer {c : Call} {i : Invocation} {d : Directory}
    (h : Invocation.ofArguments c.args = .ok i) (hstatus : (c.run d).2.status = 0) :
    ∃ answer, (i.run d c.elapsed).result = .ok answer := by
  rw [run_of_args h] at hstatus
  cases hresult : (i.run d c.elapsed).result with
  | error e => simp [hresult, Ending.ofResult, Ending.status] at hstatus
  | ok answer => exact ⟨answer, rfl⟩

theorem status_of_answer {c : Call} {i : Invocation} {d : Directory} {answer : Answer}
    (h : Invocation.ofArguments c.args = .ok i)
    (hanswer : (i.run d c.elapsed).result = .ok answer) : (c.run d).2.status = 0 := by
  rw [run_of_args h, hanswer]
  rfl

def parsing (script base out : String) (elapsed : Duration) : Call :=
  ⟨["parse", script, "--base-path", base, "--out", out], elapsed⟩

def locating (file lines : String) (elapsed : Duration) : Call :=
  ⟨["--json", "locate", file, "--line", lines], elapsed⟩

def mapping (script base lines : String) (elapsed : Duration) : Call :=
  ⟨["--json", "map", script, "--base-path", base, "--line", lines], elapsed⟩

theorem output_locating {d : Directory} {file text : String} {lines : List Nat} {elapsed : Duration}
    {scene : Json} (h : Invocation.ofArguments (locating file text elapsed).args =
      .ok ⟨{ json := true }, .locate file lines⟩)
    (hread : d.read file = .ok (String.ofList scene.pretty)) (colored : Bool) :
    (locating file text elapsed).output colored d =
      (Json.array (lines.map fun n => .object [("line", .nat n),
        ("position", nullable Position.toJson (Correlation.locate scene.pretty n).toOption),
        ("selection", nullable Selection.toJson (Correlation.select? scene.pretty n))])).pretty
        ++ ['\n'] := by
  rw [output_of_answer h (result_locate hread lines elapsed)]
  show (Json.array ((lines.map (located _)).map Located.toJson)).pretty ++ ['\n'] = _
  simp only [List.map_map, Function.comp_def, Located.toJson, located, String.toList_ofList]

theorem output_mapping {d : Directory} {script base text : String} {lines : List Nat}
    {elapsed : Duration} {s : Session}
    (h : Invocation.ofArguments (mapping script base text elapsed).args =
      .ok ⟨{ json := true }, .map script lines base⟩)
    (hs : parseFile d (Preferences.defaultPath d.homeText) script none base = .ok s)
    (hlines : lines ≠ []) (colored : Bool) :
    (mapping script base text elapsed).output colored d =
      (Json.array (lines.map fun n => .object [("line", .nat n),
        ("sentence", nth (s.scene.sentences.map Sentence.toJson) n),
        ("selection", nullable Selection.toJson
          (Correlation.select? s.scene.toJson.pretty n))])).pretty ++ ['\n'] := by
  have htext : s.output.toList = s.scene.toJson.pretty := by
    rw [output_of_parseFile hs, String.toList_ofList]
  rw [output_of_answer h (result_map hs hlines elapsed)]
  show (Json.array ((lines.map (mapped s)).map Mapped.toJson)).pretty ++ ['\n'] = _
  simp only [List.map_map, Function.comp_def, Mapped.toJson, mapped, nullable_sentence?, htext]

/-- Where a script can be parsed into a file and lines be located there, they can be mapped, with
the same ranges, and with the sentences that the file has for them. The argument that names the
script is no option; the file may be the script, or hold the preferences. -/
theorem mapping_agrees {d : Directory} {script base out text : String}
    {parseTime locateTime : Duration} (mapTime : Duration) (colored : Bool)
    (hscript : Form.ofText script = .plain)
    (hparsed : ((parsing script base out parseTime).run d).2.status = 0)
    (hlocated : ((locating out text locateTime).run
      ((parsing script base out parseTime).run d).1).2.status = 0) :
    let parsed := ((parsing script base out parseTime).run d).1
    ((mapping script base text mapTime).run d).2.status = 0 ∧
    ∃ (lines : List Nat) (saved : Json) (items : List Json), linesOf text = .ok lines ∧ lines ≠ [] ∧
      parsed.read out = .ok (String.ofList saved.pretty) ∧
      saved.get? "sentenceList" = some (.array items) ∧
      (locating out text locateTime).output colored parsed =
        (Json.array (lines.map fun n => .object [("line", .nat n),
          ("position", nullable Position.toJson (Correlation.locate saved.pretty n).toOption),
          ("selection", nullable Selection.toJson (Correlation.select? saved.pretty n))])).pretty
          ++ ['\n'] ∧
      (mapping script base text mapTime).output colored d =
        (Json.array (lines.map fun n => .object [("line", .nat n),
          ("sentence", nth items n),
          ("selection", nullable Selection.toJson (Correlation.select? saved.pretty n))])).pretty
          ++ ['\n'] := by
  intro parsed
  obtain ⟨hscriptne, hbase, hout, houtne, hparse⟩ | hrefused :=
    Invocation.ofArguments_parse hscript base out
  · obtain ⟨htext, lines, hlines, hsome, hlocate⟩ | hrefused :=
      Invocation.ofArguments_locate hout houtne text
    · have hmap := Invocation.ofArguments_map hscript hscriptne hbase htext hlines
      -- Both ways parse the script in the tree as it is before the scene is saved.
      obtain ⟨answer, hanswer⟩ :=
        exists_answer (c := parsing script base out parseTime) hparse hparsed
      obtain ⟨s, hs, hread⟩ := read_runParse hanswer
      have hrun := run_of_args (c := parsing script base out parseTime) hparse d
      have hread : parsed.read out = .ok (String.ofList s.scene.toJson.pretty) := by
        rw [← output_of_parseFile hs]
        exact (congrArg (fun r => Directory.read r.1 out) hrun).trans hread
      refine ⟨?_, lines, s.scene.toJson, s.scene.sentences.map Sentence.toJson, hlines, hsome,
        hread, rfl, ?_, ?_⟩
      · exact status_of_answer (c := mapping script base text mapTime) hmap
          (result_map hs hsome mapTime)
      · exact output_locating hlocate hread colored
      · exact output_mapping hmap hs hsome colored
    · exact absurd hlocated (status_of_refused hrefused parsed)
  · exact absurd hparsed (status_of_refused hrefused d)

theorem mapping_agrees_overwritten :
    let d : Directory := ⟨[], [(["s.txt"], .file (.text "A:x\nend"))]⟩
    let parsed := (parsing "s.txt" "game" "s.txt" .zero).run d
    let located := (locating "s.txt" "0,2,2,9" .zero).run parsed.1
    let mapped := (mapping "s.txt" "game" "0,2,2,9" .zero).run d
    parsed.2.status = 0 ∧ located.2.status = 0 ∧ mapped.2.status = 0 ∧
      ∃ saved items, parsed.1.read "s.txt" = .ok (String.ofList (Json.pretty saved)) ∧
        saved.get? "sentenceList" = some (.array items) ∧
        (mapping "s.txt" "game" "0,2,2,9" .zero).output false d =
          (Json.array ([0, 2, 2, 9].map fun n => .object [("line", .nat n),
            ("sentence", nth items n),
            ("selection", nullable Selection.toJson (Correlation.select? saved.pretty n))])).pretty
            ++ ['\n'] := by
  intro d parsed located mapped
  have hparsed : parsed.2.status = 0 := by decide +kernel
  have hlocated : located.2.status = 0 := by decide +kernel
  have hlines : linesOf "0,2,2,9" = .ok [0, 2, 2, 9] := rfl
  obtain ⟨hmapped, lines, saved, items, htext, -, hread, hitems, -, hshown⟩ :=
    mapping_agrees .zero false rfl hparsed hlocated
  obtain rfl : [0, 2, 2, 9] = lines := Except.ok.inj (hlines.symm.trans htext)
  exact ⟨hparsed, hlocated, hmapped, saved, items, hread, hitems, hshown⟩

end Call
end SceneScript.CommandLine
