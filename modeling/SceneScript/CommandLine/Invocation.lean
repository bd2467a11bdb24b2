import SceneScript.CommandLine.Level
import SceneScript.Number.Power
import SceneScript.Preferences.Basic
import SceneScript.Text.Numeral

namespace SceneScript.CommandLine

inductive ThemeChoice where
  | only (theme : Theme)
  | toggle
deriving DecidableEq, Repr

def ThemeChoice.resolve : ThemeChoice → Theme → Theme
  | only theme, _ => theme
  | toggle, current => current.toggled

inductive Setting where
  | keep
  | theme (choice : ThemeChoice)
  | location (on : Bool)
  | version (version : String)
deriving DecidableEq, Repr

inductive Task where
  | greet
  | parse (script : String) (name : Option String) (base : String) (out : Option String)
  | locate (output : String) (lines : List Nat)
  /-- No lines stand for all lines of the script. -/
  | map (script : String) (lines : List Nat) (base : String)
  | versions
  | configure (setting : Setting)
deriving DecidableEq, Repr

structure Globals where
  json : Bool := false
  config : Option String := none
deriving DecidableEq, Repr

def Globals.merge (outer inner : Globals) : Globals where
  json := outer.json || inner.json
  config := inner.config <|> outer.config

structure Invocation where
  globals : Globals
  task : Task
deriving DecidableEq, Repr

structure Draft (α : Type) where
  globals : Globals := {}
  own : α

def onOwn {α : Type} (set : Setter α) : Setter (Draft α) := fun v d =>
  (set v d.own).map fun own => { d with own }

def valueSwitch {α : Type} (long : String) (short : Char) (set : Setter α) : Switch (Draft α) :=
  ⟨long, some short, .value (onOwn set)⟩

def once {α β : Type} (get : α → Option β) (read : String → Except Usage β)
    (put : β → α → α) : Setter α := fun v a =>
  if (get a).isSome then .error .repeatedArgument else (read v).map fun b => put b a

def required {α : Type} : Option α → Except Usage α
  | some a => .ok a
  | none => .error .missingArgument

def textOf (v : String) : Except Usage String :=
  .ok v

def pathOf (v : String) : Except Usage String :=
  if v.isEmpty then .error .invalidValue else .ok v

def linesOf (v : String) : Except Usage (List Nat) :=
  (v.toList.splitOn ',').mapM fun piece =>
    match Text.naturalBelow? (twoTo 64) piece with
    | some n => .ok n
    | none => .error .malformedValue

def themeOf (v : String) : Except Usage ThemeChoice :=
  if v = "toggle" then .ok .toggle
  else
    match Theme.ofName? v with
    | some theme => .ok (.only theme)
    | none => .error .invalidValue

def onOff (v : String) : Except Usage Bool :=
  if v = "on" then .ok true
  else if v = "off" then .ok false
  else .error .invalidValue

def globalSwitches {α : Type} : List (Switch (Draft α)) :=
  [⟨"json", none, .flag fun d =>
      if d.globals.json then .error .repeatedArgument
      else .ok { d with globals.json := true }⟩,
    ⟨"config", none, .value (once (·.globals.config) pathOf
      fun path d => { d with globals.config := some path })⟩,
    ⟨"help", some 'h', .ask .help⟩,
    ⟨"version", some 'V', .ask .version⟩]

def leaf {α : Type} (switches : List (Switch (Draft α))) (operands : List (Setter α)) :
    Level (Draft α) where
  switches := switches ++ globalSwitches
  operands := operands.map onOwn
  commands := []

def noneBehind (_ : String) (_ : List String) : Except Usage Unit :=
  .error .unknownCommand

def readLeaf {α : Type} (level : Level (Draft α)) (start : α) (finish : α → Except Usage Task)
    (args : List String) : Except Usage Invocation := do
  let (d, _) ← level.read { own := start } noneBehind args
  return ⟨d.globals, ← finish d.own⟩

def branch (commands : List String) : Level (Draft Unit) where
  switches := globalSwitches
  operands := []
  commands := commands

structure ParseDraft where
  script : Option String := none
  name : Option String := none
  base : Option String := none
  out : Option String := none

def readParse : List String → Except Usage Invocation :=
  readLeaf
    (leaf
      [valueSwitch "name" 'n' (once ParseDraft.name textOf fun v d => { d with name := some v }),
        valueSwitch "base-path" 'b'
          (once ParseDraft.base textOf fun v d => { d with base := some v }),
        valueSwitch "out" 'o' (once ParseDraft.out pathOf fun v d => { d with out := some v })]
      [once ParseDraft.script pathOf fun v d => { d with script := some v }])
    {}
    fun d => do return .parse (← required d.script) d.name (d.base.getD "") d.out

structure LinesDraft where
  file : Option String := none
  lines : List Nat := []
  base : Option String := none

def linesSwitch : Switch (Draft LinesDraft) :=
  valueSwitch "line" 'l' fun v d => (linesOf v).map fun ns => { d with lines := d.lines ++ ns }

def fileOperand : Setter LinesDraft :=
  once LinesDraft.file pathOf fun v d => { d with file := some v }

def readLocate : List String → Except Usage Invocation :=
  readLeaf (leaf [linesSwitch] [fileOperand]) {} fun d => do
    let output ← required d.file
    if d.lines.isEmpty then .error .missingArgument
    return .locate output d.lines

def readMap : List String → Except Usage Invocation :=
  readLeaf
    (leaf
      [linesSwitch,
        valueSwitch "base-path" 'b'
          (once LinesDraft.base textOf fun v d => { d with base := some v })]
      [fileOperand])
    {}
    fun d => do return .map (← required d.file) d.lines (d.base.getD "")

def readPlain (task : Task) : List String → Except Usage Invocation :=
  readLeaf (leaf [] []) () fun _ => .ok task

def readOperand {β : Type} (read : String → Except Usage β) (task : β → Task) :
    List String → Except Usage Invocation :=
  readLeaf (leaf [] [once id read fun b _ => some b]) none fun d => do return task (← required d)

def configCommands : List String :=
  ["show", "theme", "location", "version", "help"]

def commands : List String :=
  ["parse", "locate", "map", "versions", "config", "help"]

def commandsBehind : List String → List String
  | [] => commands
  | ["config"] => configCommands
  | _ => []

def helpOn (path : List String) : List String → Usage
  | [] => .help
  | word :: words =>
      if (commandsBehind path).contains word then helpOn (path ++ [word]) words
      else .unknownCommand

def enterConfig : String → List String → Except Usage Invocation
  | "show" => readPlain (.configure .keep)
  | "theme" => readOperand themeOf fun choice => .configure (.theme choice)
  | "location" => readOperand onOff fun on => .configure (.location on)
  | "version" => readOperand textOf fun version => .configure (.version version)
  | "help" => fun words => .error (helpOn ["config"] words)
  | _ => fun _ => .error .unknownCommand

def withGlobals (outer : Globals) (inner : Invocation) : Invocation :=
  { inner with globals := outer.merge inner.globals }

def readConfig (args : List String) : Except Usage Invocation := do
  let (d, inner) ← (branch configCommands).read { own := () } enterConfig args
  match inner with
  | some inner => .ok (withGlobals d.globals inner)
  | none => .error (if d.globals = {} then .commandAlone else .missingCommand)

def enter : String → List String → Except Usage Invocation
  | "parse" => readParse
  | "locate" => readLocate
  | "map" => readMap
  | "versions" => readPlain .versions
  | "config" => readConfig
  | "help" => fun words => .error (helpOn [] words)
  | _ => fun _ => .error .unknownCommand

def Invocation.ofArguments (args : List String) : Except Usage Invocation := do
  let (d, inner) ← (branch commands).read { own := () } enter args
  match inner with
  | some inner => .ok (withGlobals d.globals inner)
  | none => .ok ⟨d.globals, .greet⟩

end SceneScript.CommandLine
