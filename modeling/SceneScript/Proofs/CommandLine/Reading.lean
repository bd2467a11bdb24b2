import SceneScript.CommandLine.Invocation

namespace SceneScript.CommandLine

theorem exists_of_bind {ε α β : Type} {x : Except ε α} {f : α → Except ε β} {b : β}
    (h : (x >>= f) = .ok b) : ∃ a, x = .ok a ∧ f a = .ok b := by
  cases x with
  | error e => simp [bind, Except.bind] at h
  | ok a => exact ⟨a, rfl, h⟩

def Refused {α : Type} (r : Except Usage α) : Prop :=
  ∃ usage, r = .error usage ∧ usage.status ≠ 0

theorem Refused.bind {α β : Type} {r : Except Usage α} (h : Refused r)
    (f : α → Except Usage β) : Refused (r >>= f) := by
  obtain ⟨usage, rfl, hstatus⟩ := h
  exact ⟨usage, rfl, hstatus⟩

theorem Refused.map {α β : Type} {r : Except Usage α} (h : Refused r) (f : α → β) :
    Refused (r.map f) := by
  obtain ⟨usage, rfl, hstatus⟩ := h
  exact ⟨usage, rfl, hstatus⟩

theorem mapM_cases {α β : Type} {f : α → Except Usage β} (xs : List α)
    (h : ∀ x, (∃ y, f x = .ok y) ∨ Refused (f x)) :
    (∃ ys, xs.mapM f = .ok ys ∧ ys.length = xs.length) ∨ Refused (xs.mapM f) := by
  induction xs with
  | nil => exact .inl ⟨[], rfl, rfl⟩
  | cons x xs ih =>
    rw [List.mapM_cons]
    obtain ⟨y, hy⟩ | hrefused := h x
    · obtain ⟨ys, hys, hlength⟩ | hrefused := ih
      · exact .inl ⟨y :: ys, by rw [hy, hys]; rfl, by simp [hlength]⟩
      · rw [hy]
        exact .inr (hrefused.bind _)
    · exact .inr (hrefused.bind _)

theorem Form.ofText_ne_short_nil (arg : String) : Form.ofText arg ≠ .short [] := by
  intro h
  unfold ofText at h
  split at h
  · simp at h
  · split at h <;> simp at h
  · simp at h
  · rename_i hone _
    exact hone (Form.short.inj h)
  · simp at h

namespace Level

variable {σ : Type}

def draft (level : Level σ) (p : Progress σ) (args : List String) : Except Usage σ := do
  let (p, _) ← level.scan p args
  let p ← p.settled
  return p.draft

section Awaiting

variable {level : Level σ} {p : Progress σ} {set : Setter σ}

theorem refused_change (h : p.pending = .awaiting set) (change : σ → Except Usage σ) :
    Refused (p.change change) :=
  ⟨.invalidValue, by simp [Progress.change, Progress.settled, h, bind, Except.bind], by decide⟩

theorem refused_useValue (h : p.pending = .awaiting set) (set' : Setter σ)
    (value : Option String) : Refused (useValue p set' value) := by
  cases value with
  | some v => exact refused_change h (set' v)
  | none => exact ⟨.invalidValue, by simp [useValue, Progress.settled, h, Except.map], by decide⟩

theorem refused_useLong (h : p.pending = .awaiting set) (name : String)
    (value : Option String) : Refused (level.useLong p name value) := by
  unfold useLong
  split
  · exact ⟨.unknownArgument, rfl, by decide⟩
  · exact refused_useValue h _ _
  · exact ⟨.unexpectedValue, rfl, by decide⟩
  · exact refused_change h _
  · exact refused_change h _

theorem refused_useShort (h : p.pending = .awaiting set) {letters : List Char}
    (hne : letters ≠ []) : Refused (level.useShort p letters) := by
  cases letters with
  | nil => exact absurd rfl hne
  | cons letter letters =>
    unfold useShort
    split
    · exact ⟨.unknownArgument, rfl, by decide⟩
    · exact refused_change h _
    · exact (refused_change h _).bind _
    · split <;> exact refused_useValue h _ _

theorem refused_useOperand (h : p.pending = .awaiting set) (v : String) (terminated : Bool) :
    Refused (level.useOperand p v terminated) := by
  unfold useOperand
  split
  · exact ⟨.invalidValue, by simp [Progress.settled, h, bind, Except.bind], by decide⟩
  · split
    · exact ⟨.unknownArgument, rfl, by decide⟩
    · exact ⟨.unknownCommand, rfl, by decide⟩

theorem refused_awaiting (h : p.pending = .awaiting set) {v : String}
    (hv : Form.ofText v ≠ .plain) (args : List String) : Refused (level.draft p (v :: args)) := by
  have henters : level.enters p v = false := by simp [enters, h]
  simp only [draft, scan, henters, Bool.false_eq_true, if_false]
  cases hform : Form.ofText v with
  | plain => exact absurd hform hv
  | long name value => exact ((refused_useLong h name value).bind _).bind _
  | short letters =>
    have hne : letters ≠ [] := by
      rintro rfl
      exact Form.ofText_ne_short_nil v hform
    exact ((refused_useShort h hne).bind _).bind _
  | terminator =>
    -- Only operands stand behind it, and the first one settles what is left, as the end does.
    cases args with
    | nil =>
      refine ⟨.invalidValue, ?_, by decide⟩
      simp [Progress.settled, h, pure, Except.pure, bind, Except.bind]
    | cons arg args =>
      rw [List.foldlM_cons]
      exact (((refused_useOperand h arg true).bind _).bind _).bind _

end Awaiting

def Names (level : Level σ) (arg : String) (set : Setter σ) : Prop :=
  ∃ long, Form.ofText arg = .long long none ∧ level.long? long = some (.value set)

section Leaf

variable {level : Level σ} (hlevel : level.commands = [])

include hlevel

theorem enters_eq_false (p : Progress σ) (arg : String) : level.enters p arg = false := by
  unfold enters
  split
  · rfl
  · simp [hlevel]

theorem scan_further {p q : Progress σ} {args : List String}
    {further : Option (String × List String)} (h : level.scan p args = .ok (q, further)) :
    further = none := by
  induction args generalizing p with
  | nil => exact (Prod.ext_iff.mp (Except.ok.inj h)).2.symm
  | cons arg args ih =>
    rw [scan, enters_eq_false hlevel, if_neg Bool.false_ne_true] at h
    split at h
    · obtain ⟨_, -, h⟩ := exists_of_bind h
      exact (Prod.ext_iff.mp (Except.ok.inj h)).2.symm
    all_goals
      obtain ⟨_, -, h⟩ := exists_of_bind h
      exact ih h

theorem read_eq_draft {τ : Type} (start : σ) (enter : String → List String → Except Usage τ)
    (args : List String) : level.read start enter args =
      (level.draft ⟨start, .nothing, level.operands⟩ args).map fun d => (d, none) := by
  unfold read draft
  cases hscan : level.scan ⟨start, .nothing, level.operands⟩ args with
  | error usage => rfl
  | ok result =>
    obtain ⟨p, further⟩ := result
    obtain rfl := scan_further hlevel hscan
    cases hsettled : p.settled with
    | error usage => simp [hsettled, bind, Except.bind, Except.map, pure, Except.pure]
    | ok q => simp [hsettled, bind, Except.bind, Except.map, pure, Except.pure]

variable {d d' : σ} {set set' : Setter σ} {operands : List (Setter σ)} {v option : String}

theorem draft_operand (hv : Form.ofText v = .plain) (args : List String) :
    level.draft ⟨d, .nothing, set :: operands⟩ (v :: args) =
      level.draft ⟨d, .value set v, operands⟩ args := by
  simp [draft, scan, enters_eq_false hlevel, hv, usePlain, useOperand, Progress.settled, bind,
    Except.bind, pure, Except.pure]

theorem draft_awaiting (hv : Form.ofText v = .plain) (args : List String) :
    level.draft ⟨d, .awaiting set, operands⟩ (v :: args) =
      level.draft ⟨d, .value set v, operands⟩ args := by
  simp [draft, scan, enters_eq_false hlevel, hv, usePlain, bind, Except.bind]

theorem draft_option (hoption : level.Names option set') (hset : set v d = .ok d')
    (args : List String) :
    level.draft ⟨d, .value set v, operands⟩ (option :: args) =
      level.draft ⟨d', .awaiting set', operands⟩ args := by
  obtain ⟨long, hform, hlong⟩ := hoption
  rw [draft, scan, enters_eq_false hlevel]
  simp [hform, useLong, hlong, useValue, Progress.settled, hset, Except.map, draft, bind,
    Except.bind]

theorem refused_option (hoption : level.Names option set') (hset : Refused (set v d))
    (args : List String) : Refused (level.draft ⟨d, .value set v, operands⟩ (option :: args)) := by
  obtain ⟨long, hform, hlong⟩ := hoption
  obtain ⟨usage, hset, hstatus⟩ := hset
  refine ⟨usage, ?_, hstatus⟩
  rw [draft, scan, enters_eq_false hlevel]
  simp [hform, useLong, hlong, useValue, Progress.settled, hset, Except.map, bind, Except.bind]

end Leaf

theorem draft_last {level : Level σ} {d : σ} {set : Setter σ} {operands : List (Setter σ)}
    {v : String} : level.draft ⟨d, .value set v, operands⟩ [] = set v d := by
  cases hset : set v d with
  | error usage => simp [draft, scan, Progress.settled, hset, Except.map, bind, Except.bind]
  | ok d' =>
    simp [draft, scan, Progress.settled, hset, Except.map, bind, Except.bind, pure, Except.pure]

end Level

theorem readLeaf_operand {α : Type} {level : Level (Draft α)} {operand : Setter (Draft α)}
    (hlevel : level.commands = []) (hoperand : level.operands = [operand]) {start : α}
    {finish : α → Except Usage Task} {v : String} (hv : Form.ofText v = .plain)
    (args : List String) :
    readLeaf level start finish (v :: args) =
      (level.draft ⟨{ own := start }, .value operand v, []⟩ args).bind
        fun d => (finish d.own).map fun task => ⟨d.globals, task⟩ := by
  rw [readLeaf, Level.read_eq_draft hlevel, hoperand, Level.draft_operand hlevel hv]
  cases level.draft ⟨{ own := start }, .value operand v, []⟩ args with
  | error usage => rfl
  | ok d =>
    cases hfinish : finish d.own <;>
      simp [hfinish, Except.map, bind, Except.bind, pure, Except.pure]

section Paths

variable {α : Type} {get : α → Option String} {d : Draft α} (hget : get d.own = none)
  (put : String → α → α)

include hget

theorem onOwn_path {v : String} (h : v ≠ "") :
    onOwn (once get pathOf put) v d = .ok { d with own := put v d.own } := by
  simp [onOwn, once, hget, pathOf, h, Except.map]

theorem refused_path : Refused (onOwn (once get pathOf put) "" d) :=
  ⟨.invalidValue, by simp [onOwn, once, hget, pathOf, Except.map], by decide⟩

end Paths

theorem linesOf_cases (text : String) :
    (∃ lines, linesOf text = .ok lines ∧ lines ≠ []) ∨ Refused (linesOf text) := by
  refine (mapM_cases (text.toList.splitOn ',') fun piece => ?_).imp_left ?_
  · split
    · exact .inl ⟨_, rfl⟩
    · exact .inr ⟨.malformedValue, rfl, by decide⟩
  · rintro ⟨lines, hlines, hlength⟩
    refine ⟨lines, hlines, ?_⟩
    rintro rfl
    exact List.splitOn_ne_nil _ _ (List.length_eq_zero_iff.mp hlength.symm)

namespace ParseDraft

def takeScript : Setter (Draft ParseDraft) :=
  onOwn (once script pathOf fun v d => { d with script := some v })

def takeBase : Setter (Draft ParseDraft) :=
  onOwn (once base textOf fun v d => { d with base := some v })

def takeOut : Setter (Draft ParseDraft) :=
  onOwn (once out pathOf fun v d => { d with out := some v })

end ParseDraft

namespace LinesDraft

def takeFile : Setter (Draft LinesDraft) :=
  onOwn fileOperand

def takeLines : Setter (Draft LinesDraft) :=
  onOwn fun v d => (linesOf v).map fun ns => { d with lines := d.lines ++ ns }

def takeBase : Setter (Draft LinesDraft) :=
  onOwn (once base textOf fun v d => { d with base := some v })

end LinesDraft

namespace Invocation

theorem ofArguments_command (json : Bool) {command : String} (h : command ∈ commands)
    (args : List String) :
    ofArguments ((if json then ["--json"] else []) ++ command :: args) =
      (enter command args).map (withGlobals { json }) := by
  have henters (p : Progress (Draft Unit)) (hp : p.pending = .nothing) :
      (branch commands).enters p command = true := by
    simpa [Level.enters, branch, hp] using h
  have hscan : (branch commands).scan ⟨{ own := () }, .nothing, []⟩
      ((if json then ["--json"] else []) ++ command :: args) =
      .ok (⟨{ own := (), globals := { json } }, .nothing, []⟩, some (command, args)) := by
    have hstart (json : Bool) : (branch commands).scan
        ⟨{ own := (), globals := { json } }, .nothing, []⟩ (command :: args) =
        .ok (⟨{ own := (), globals := { json } }, .nothing, []⟩, some (command, args)) := by
      rw [Level.scan, henters _ rfl, if_pos rfl]
    cases json with
    | false => exact hstart false
    | true => exact hstart true
  rw [ofArguments, Level.read, show (branch commands).operands = [] from rfl, hscan]
  cases hinner : enter command args with
  | error usage => simp [hinner, Functor.map, Except.map, bind, Except.bind]
  | ok inner =>
    simp [hinner, Progress.settled, Functor.map, Except.map, bind, Except.bind, pure, Except.pure]

theorem ofArguments_parse {script : String} (hscript : Form.ofText script = .plain)
    (base out : String) :
    (script ≠ "" ∧ Form.ofText base = .plain ∧ Form.ofText out = .plain ∧ out ≠ "" ∧
      ofArguments ["parse", script, "--base-path", base, "--out", out] =
        .ok ⟨{}, .parse script none base (some out)⟩) ∨
    Refused (ofArguments ["parse", script, "--base-path", base, "--out", out]) := by
  have hcommand : ofArguments ["parse", script, "--base-path", base, "--out", out] =
      (readParse [script, "--base-path", base, "--out", out]).map (withGlobals {}) :=
    ofArguments_command false (by decide) _
  rw [hcommand, readParse]
  generalize hlevel : (leaf _ _ : Level (Draft ParseDraft)) = level
  have hleaf : level.commands = [] := hlevel ▸ rfl
  have hoperand : level.operands = [ParseDraft.takeScript] := hlevel ▸ rfl
  have hbase : level.Names "--base-path" ParseDraft.takeBase := ⟨"base-path", rfl, hlevel ▸ rfl⟩
  have hout : level.Names "--out" ParseDraft.takeOut := ⟨"out", rfl, hlevel ▸ rfl⟩
  rw [readLeaf_operand hleaf hoperand hscript]
  by_cases hempty : script = ""
  · subst hempty
    exact .inr (((Level.refused_option hleaf hbase (refused_path rfl _) _).bind _).map _)
  have htake : ParseDraft.takeScript script { own := {} } =
    .ok { own := { script := some script } } := onOwn_path rfl _ hempty
  rw [Level.draft_option hleaf hbase htake]
  by_cases hplain : Form.ofText base = .plain
  · have htake : ParseDraft.takeBase base { own := { script := some script } } =
      .ok { own := { script := some script, base := some base } } := rfl
    rw [Level.draft_awaiting hleaf hplain, Level.draft_option hleaf hout htake]
    by_cases hplain' : Form.ofText out = .plain
    · rw [Level.draft_awaiting hleaf hplain', Level.draft_last]
      by_cases hempty' : out = ""
      · subst hempty'
        exact .inr (((refused_path rfl _).bind _).map _)
      · have htake :
            ParseDraft.takeOut out { own := { script := some script, base := some base } } =
              .ok { own := { script := some script, base := some base, out := some out } } :=
          onOwn_path rfl _ hempty'
        exact .inl ⟨hempty, hplain, hplain', hempty', by rw [htake]; rfl⟩
    · exact .inr (((Level.refused_awaiting rfl hplain' _).bind _).map _)
  · exact .inr (((Level.refused_awaiting rfl hplain _).bind _).map _)

theorem ofArguments_locate {file : String} (hfile : Form.ofText file = .plain) (hne : file ≠ "")
    (text : String) :
    (Form.ofText text = .plain ∧ ∃ lines, linesOf text = .ok lines ∧ lines ≠ [] ∧
      ofArguments ["--json", "locate", file, "--line", text] =
        .ok ⟨{ json := true }, .locate file lines⟩) ∨
    Refused (ofArguments ["--json", "locate", file, "--line", text]) := by
  have hcommand : ofArguments ["--json", "locate", file, "--line", text] =
      (readLocate [file, "--line", text]).map (withGlobals { json := true }) :=
    ofArguments_command true (by decide) _
  rw [hcommand, readLocate]
  generalize hlevel : (leaf _ _ : Level (Draft LinesDraft)) = level
  have hleaf : level.commands = [] := hlevel ▸ rfl
  have hoperand : level.operands = [LinesDraft.takeFile] := hlevel ▸ rfl
  have hline : level.Names "--line" LinesDraft.takeLines := ⟨"line", rfl, hlevel ▸ rfl⟩
  have htake : LinesDraft.takeFile file { own := {} } = .ok { own := { file := some file } } :=
    onOwn_path rfl _ hne
  rw [readLeaf_operand hleaf hoperand hfile, Level.draft_option hleaf hline htake]
  by_cases hplain : Form.ofText text = .plain
  · rw [Level.draft_awaiting hleaf hplain, Level.draft_last]
    obtain ⟨lines, hlines, hsome⟩ | hrefused := linesOf_cases text
    · have htake : LinesDraft.takeLines text { own := { file := some file } } =
          .ok { own := { file := some file, lines } } := by
        simp [LinesDraft.takeLines, onOwn, hlines, Except.map]
      refine .inl ⟨hplain, lines, hlines, hsome, ?_⟩
      rw [htake]
      simp [Except.bind, Except.map, required, hsome, bind, pure, Except.pure]
      rfl
    · exact .inr ((((hrefused.map _).map _).bind _).map _)
  · exact .inr (((Level.refused_awaiting rfl hplain _).bind _).map _)

theorem ofArguments_map {script base text : String} {lines : List Nat}
    (hscript : Form.ofText script = .plain) (hne : script ≠ "")
    (hbase : Form.ofText base = .plain) (htext : Form.ofText text = .plain)
    (hlines : linesOf text = .ok lines) :
    ofArguments ["--json", "map", script, "--base-path", base, "--line", text] =
      .ok ⟨{ json := true }, .map script lines base⟩ := by
  have hcommand : ofArguments ["--json", "map", script, "--base-path", base, "--line", text] =
      (readMap [script, "--base-path", base, "--line", text]).map
        (withGlobals { json := true }) :=
    ofArguments_command true (by decide) _
  rw [hcommand, readMap]
  generalize hlevel : (leaf _ _ : Level (Draft LinesDraft)) = level
  have hleaf : level.commands = [] := hlevel ▸ rfl
  have hoperand : level.operands = [LinesDraft.takeFile] := hlevel ▸ rfl
  have hbaseOption : level.Names "--base-path" LinesDraft.takeBase :=
    ⟨"base-path", rfl, hlevel ▸ rfl⟩
  have hlineOption : level.Names "--line" LinesDraft.takeLines := ⟨"line", rfl, hlevel ▸ rfl⟩
  have htakeFile : LinesDraft.takeFile script { own := {} } =
    .ok { own := { file := some script } } := onOwn_path rfl _ hne
  have htakeBase : LinesDraft.takeBase base { own := { file := some script } } =
    .ok { own := { file := some script, base := some base } } := rfl
  have htakeLines :
      LinesDraft.takeLines text { own := { file := some script, base := some base } } =
        .ok { own := { file := some script, base := some base, lines } } := by
    simp [LinesDraft.takeLines, onOwn, hlines, Except.map]
  rw [readLeaf_operand hleaf hoperand hscript, Level.draft_option hleaf hbaseOption htakeFile,
    Level.draft_awaiting hleaf hbase, Level.draft_option hleaf hlineOption htakeBase,
    Level.draft_awaiting hleaf htext, Level.draft_last, htakeLines]
  rfl

end Invocation
end SceneScript.CommandLine
