import SceneScript.Failure
import SceneScript.Preferences.Basic
import SceneScript.Text.Blank
import SceneScript.Yaml.Anchors
import SceneScript.Yaml.Printer

namespace SceneScript.Preferences

open Yaml (Anchors Node Reference)

def render (p : Preferences) : List Char :=
  "theme: ".toList ++ p.theme.name.toList ++ "\nlocation: ".toList
    ++ (if p.location then "true" else "false").toList ++ '\n'
    :: p.parserVersion.elim [] fun v => "parser-version: ".toList ++ Yaml.printed v.toList

def keyOf? : Node → Option (List Char)
  | .scalar _ _ text => some text
  | _ => none

def ownTag? : Option (List Char) → Option (List Char)
  | some ('!' :: name) =>
      if name.contains '\uFFFD' then none else some (if name.isEmpty then ['!'] else name)
  | _ => none

def themeOf? : Node → Option Theme
  | .scalar p style text =>
      match ownTag? p.tag with
      | some name =>
          if style == .plain && (text.isEmpty || Yaml.isNull text) then
            Theme.ofName? (String.ofList name)
          else none
      | none => Theme.ofName? (String.ofList text)
  | _ => none

/-- A truth value is a plain scalar, or a literal block that is tagged as one. -/
def locationOf? : Node → Option Bool
  | .scalar p style text =>
      if style == .plain
          || (style == .literal && p.tag == some "tag:yaml.org,2002:bool".toList) then
        Yaml.bool? text
      else none
  | _ => none

/-- A version is any scalar; a plain one that stands for nothing unsets it. -/
def versionOf? : Node → Option (Option String)
  | .scalar p style text =>
      if style != .plain then some (some (String.ofList text))
      else
        match p.tag with
        | some tag =>
            if tag == "tag:yaml.org,2002:null".toList then
              if Yaml.isNull text then some none else none
            else some (some (String.ofList text))
        | none =>
            if text.isEmpty || Yaml.isNull text then some none
            else some (some (String.ofList text))
  | _ => none

structure Settings where
  theme : Option Theme := none
  location : Option Bool := none
  parserVersion : Option (Option String) := none
deriving DecidableEq, Repr

/-- The settings with that of an entry, which no earlier entry may have set; entries with other keys
do not count. -/
def Settings.apply (s : Settings) (key : List Char) (value : Node) : Option Settings :=
  if key = "theme".toList then
    if s.theme.isSome then none
    else (themeOf? value).map fun t => { s with theme := some t }
  else if key = "location".toList then
    if s.location.isSome then none
    else (locationOf? value).map fun b => { s with location := some b }
  else if key = "parser-version".toList then
    if s.parserVersion.isSome then none
    else (versionOf? value).map fun v => { s with parserVersion := some v }
  else some s

def ofSettings (s : Settings) : Preferences where
  theme := s.theme.getD .light
  location := s.location.getD false
  parserVersion := s.parserVersion.getD none

def applyEntries (anchors : Anchors) (s : Settings) :
    List (Reference × Reference) → Option Settings
  | [] => some s
  | (key, value) :: entries => do
      let key ← keyOf? (← anchors.target? key)
      let s ← s.apply key (← anchors.target? value)
      applyEntries anchors s entries

def ofRoot? : Option Node → Option Preferences
  | none => some {}
  | some (.scalar p .plain []) => (({} : Anchors).collect (.scalar p .plain [])).map fun _ => {}
  | some (.mapping p entries) => do
      let anchors := ({} : Anchors).note p.anchor (.mapping p entries)
      let (entries, anchors) ← anchors.referEntries entries
      let s ← applyEntries anchors {} entries
      some (ofSettings s)
  | some _ => none

def ofText? (s : List Char) : Option Preferences :=
  if s.all Text.isBlank then some {} else (Node.ofText? s).bind ofRoot?

def load (d : Directory) (path : String) : Except Failure Preferences :=
  match d.read path with
  | .ok s =>
      match ofText? s.toList with
      | some p => .ok p
      | none => .error (.badPreferences path)
  | .error .notFound => .ok {}
  | .error e => .error (.file e)

def save (p : Preferences) (d : Directory) (path : String) : Directory × Except Failure Unit :=
  match d.save path (String.ofList p.render) with
  | (d, .ok ()) => (d, .ok ())
  | (d, .error e) => (d, .error (.file e))

def defaultPath (folder : String) : String :=
  Path.joined (Path.joined folder ".webgal-playground") "config.yaml"

end SceneScript.Preferences
