import SceneScript.CommandLine.Usage
import SceneScript.Text.Split

/-!
How the arguments of one command are read. They change a draft of what is to be done, step by step;
what an argument changes is settled when the next one is known, and a further command ends the
level. The rest of the arguments is the further command's own.
-/

namespace SceneScript.CommandLine

abbrev Setter (σ : Type) := String → σ → Except Usage σ

inductive Effect (σ : Type) where
  | flag (set : σ → Except Usage σ)
  | value (set : Setter σ)
  | ask (usage : Usage)

structure Switch (σ : Type) where
  long : String
  short : Option Char
  effect : Effect σ

structure Level (σ : Type) where
  switches : List (Switch σ)
  operands : List (Setter σ)
  commands : List String

inductive Pending (σ : Type) where
  | nothing
  | awaiting (set : Setter σ)
  | value (set : Setter σ) (v : String)

structure Progress (σ : Type) where
  draft : σ
  pending : Pending σ
  operands : List (Setter σ)

inductive Form where
  | terminator
  | long (name : String) (value : Option String)
  | short (letters : List Char)
  | plain

def Form.ofText (arg : String) : Form :=
  match arg.toList with
  | ['-', '-'] => terminator
  | '-' :: '-' :: s =>
      match Text.cut? '=' s with
      | some (name, value) => long (String.ofList name) (some (String.ofList value))
      | none => long (String.ofList s) none
  | ['-'] => plain
  | '-' :: s => short s
  | _ => plain

namespace Progress

variable {σ : Type}

/-- The progress with nothing left to settle. An option that has not found its value by then has
none. -/
def settled (p : Progress σ) : Except Usage (Progress σ) :=
  match p.pending with
  | .nothing => .ok p
  | .awaiting _ => .error .invalidValue
  | .value set v => (set v p.draft).map fun draft => { p with draft, pending := .nothing }

def change (p : Progress σ) (set : σ → Except Usage σ) : Except Usage (Progress σ) := do
  let p ← p.settled
  return { p with draft := ← set p.draft }

end Progress

namespace Level

variable {σ : Type}

def long? (level : Level σ) (name : String) : Option (Effect σ) :=
  (level.switches.find? fun o => o.long == name).map Switch.effect

def short? (level : Level σ) (letter : Char) : Option (Effect σ) :=
  (level.switches.find? fun o => o.short == some letter).map Switch.effect

def useValue (p : Progress σ) (set : Setter σ) : Option String → Except Usage (Progress σ)
  | some v => p.change (set v)
  | none => p.settled.map fun p => { p with pending := .awaiting set }

def useLong (level : Level σ) (p : Progress σ) (name : String) (value : Option String) :
    Except Usage (Progress σ) :=
  match level.long? name, value with
  | none, _ => .error .unknownArgument
  | some (.value set), _ => useValue p set value
  | some _, some _ => .error .unexpectedValue
  | some (.flag set), none => p.change set
  | some (.ask usage), none => p.change fun _ => .error usage

/-- The use of options by their letters. What stands behind the letter of an option with a value is
that value. -/
def useShort (level : Level σ) (p : Progress σ) : List Char → Except Usage (Progress σ)
  | [] => .ok p
  | letter :: letters =>
      match level.short? letter with
      | none => .error .unknownArgument
      | some (.ask usage) => p.change fun _ => .error usage
      | some (.flag set) => do
          let p ← p.change set
          level.useShort p letters
      | some (.value set) =>
          match letters with
          | [] => useValue p set none
          | '=' :: v => useValue p set (some (String.ofList v))
          | v => useValue p set (some (String.ofList v))

def useOperand (level : Level σ) (p : Progress σ) (v : String) (terminated : Bool) :
    Except Usage (Progress σ) :=
  match p.operands with
  | set :: operands => do
      let p ← p.settled
      return { p with pending := .value set v, operands }
  | [] =>
      if level.commands.isEmpty || (terminated && level.commands.contains v) then
        .error .unknownArgument
      else .error .unknownCommand

def usePlain (level : Level σ) (p : Progress σ) (v : String) : Except Usage (Progress σ) :=
  match p.pending with
  | .awaiting set => .ok { p with pending := .value set v }
  | _ => level.useOperand p v false

def enters (level : Level σ) (p : Progress σ) (arg : String) : Bool :=
  match p.pending with
  | .awaiting _ => false
  | _ => level.commands.contains arg

def scan (level : Level σ) (p : Progress σ) :
    List String → Except Usage (Progress σ × Option (String × List String))
  | [] => .ok (p, none)
  | arg :: args =>
      if level.enters p arg then .ok (p, some (arg, args))
      else
        match Form.ofText arg with
        | .terminator => do
            let p ← args.foldlM (fun p v => level.useOperand p v true) p
            return (p, none)
        | .long name value => do level.scan (← level.useLong p name value) args
        | .short letters => do level.scan (← level.useShort p letters) args
        | .plain => do level.scan (← level.usePlain p arg) args

/-- The draft that the arguments of a level lead to, and what the further command gives. What the
level leaves to settle is settled behind the further command. -/
def read {τ : Type} (level : Level σ) (start : σ)
    (enter : String → List String → Except Usage τ) (args : List String) :
    Except Usage (σ × Option τ) := do
  let (p, further) ← level.scan ⟨start, .nothing, level.operands⟩ args
  let inner ← further.mapM fun (command, rest) => enter command rest
  let p ← p.settled
  return (p.draft, inner)

end Level
end SceneScript.CommandLine
