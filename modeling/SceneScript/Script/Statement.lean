import SceneScript.Scene.Basic
import SceneScript.Text.Blank
import SceneScript.Text.Split

/-!
One line of a script and the sentence it stands for. A line is a statement and, behind an
unescaped semicolon, a comment. A statement is a head and a body around an unescaped colon, or a
body alone; behind a space and a dash a body carries arguments.
-/

namespace SceneScript.Script

open Text

/-- What stands before and after the first `target` that no backslash escapes. A backslash escapes
the character behind it, whatever that is. -/
def cutUnescaped? (target : Char) : List Char → Option (List Char × List Char)
  | [] => none
  | '\\' :: [] => none
  | '\\' :: c :: s => (cutUnescaped? target s).map fun p => ('\\' :: c :: p.1, p.2)
  | c :: s =>
      if c = target then some ([], s)
      else (cutUnescaped? target s).map fun p => (c :: p.1, p.2)

def unescape : List Char → List Char
  | [] => []
  | '\\' :: ';' :: s => ';' :: unescape s
  | '\\' :: ':' :: s => ':' :: unescape s
  | c :: s => c :: unescape s

def cutComment (line : List Char) : List Char × List Char :=
  (cutUnescaped? ';' line).getD (line, [])

/-- The text can be the key of an argument: a letter or underscore, then letters, digits,
underscores and dots. -/
def isKey : List Char → Bool
  | [] => false
  | c :: s => (c.isAlpha || c == '_') && s.all fun d => d.isAlphanum || d == '_' || d == '.'

/-- The argument that a segment behind a dash stands for. A key alone is a flag that is on. -/
def arg? (segment : List Char) : Option Arg :=
  let segment := trim segment
  match cut? '=' segment with
  | some (key, value) =>
      if isKey (trim key) then
        some ⟨String.ofList (trim key), ArgValue.ofRaw (unescape (trim value))⟩
      else none
  | none => if isKey segment then some ⟨String.ofList segment, .flag true⟩ else none

def kept (segment : List Char) : List Char :=
  if (arg? segment).isSome then [] else ' ' :: '-' :: segment

def splitArgs (body : List Char) : List Char × List Arg :=
  match splitDash body with
  | [] => ([], [])
  | first :: segments =>
      (unescape (trim (first ++ segments.flatMap kept)), segments.filterMap arg?)

/-- The arguments of a spoken line: the last speaker comes first and is the only one. -/
def settleSpeaker (args : List Arg) : List Arg :=
  let isSpeaker := fun a : Arg => a.key == "speaker"
  match (args.filter isSpeaker).getLast? with
  | some speaker => speaker :: args.filter (!isSpeaker ·)
  | none => args

def contentKind? : Command → Option AssetKind
  | .changeBg | .unlockCg => some .background
  | .changeFigure | .miniAvatar => some .figure
  | .bgm | .unlockBgm | .playEffect => some .bgm
  | .video => some .video
  | .changeScene | .callScene => some .scene
  | _ => none

/-- The text names an asset: it is not empty, and `none` clears a slot. -/
def isAssetName (name : List Char) : Bool :=
  !name.isEmpty && name != "none".toList

def assetUrl (base : List Char) (kind : AssetKind) (name : List Char) : List Char :=
  if (before? "://".toList name).isSome then name
  else
    let base := dropEndWhile (· == '/') base
    let place := kind.folder.toList ++ '/' :: name
    if base.isEmpty then place else base ++ '/' :: place

def optionTarget? (option : List Char) : Option (List Char) := do
  let (_, target) ← cut? ':' option
  if isAssetName (trim target) then some (trim target) else none

def choiceTargets (content : List Char) : List (List Char) :=
  (content.splitOn '|').filterMap optionTarget?

def assetNames (command : Command) (content : List Char) (args : List Arg) :
    List (AssetKind × List Char) :=
  let ofContent := match contentKind? command with
    | some kind => if isAssetName content then [(kind, content)] else []
    | none => []
  let ofChoice := if command = .choose then (choiceTargets content).map (AssetKind.scene, ·) else []
  let voice := (args.find? fun a => a.key == "vocal").bind fun a => a.value.text?
  let ofVoice := match voice with
    | some name => if isAssetName name.toList then [(AssetKind.vocal, name.toList)] else []
    | none => []
  ofContent ++ ofChoice ++ ofVoice

def sceneNames (command : Command) (content : List Char) : List (List Char) :=
  let ofContent :=
    if contentKind? command = some .scene ∧ isAssetName content then [content] else []
  let ofChoice := if command = .choose then choiceTargets content else []
  ofContent ++ ofChoice

def sentence (base : List Char) (number : Nat) (command : Command) (raw content : List Char)
    (args : List Arg) : Sentence where
  command
  commandRaw := String.ofList raw
  content := String.ofList content
  args
  assets := (assetNames command content args).map fun (kind, name) =>
    ⟨String.ofList name, kind, String.ofList (assetUrl base kind name), number⟩
  subScenes := (sceneNames command content).map String.ofList

def resolve (statement : List Char) : Command × List Char × List Char × List Arg :=
  match cutUnescaped? ':' statement with
  | some (head, body) =>
      let head := trim head
      let (content, args) := splitArgs body
      match Command.ofKeyword? (String.ofList head) with
      | some command => (command, head, content, args)
      | none =>
          let speaker := if head.isEmpty then [] else [⟨"speaker", .text (String.ofList head)⟩]
          (.say, head, content, speaker ++ args)
  | none =>
      let (content, args) := splitArgs statement
      match Command.ofKeyword? (String.ofList content) with
      | some command => (command, content, [], args)
      | none => (.say, content, content, args)

def parseLine (base : List Char) (number : Nat) (line : List Char) : Sentence :=
  let (statement, comment) := cutComment line
  let statement := trim statement
  if statement.isEmpty then
    ⟨.comment, "", String.ofList (trim comment), [], [], []⟩
  else
    let (command, raw, content, args) := resolve statement
    sentence base number command raw content
      (if command = .say then settleSpeaker args else args)

def parseLines (base : List Char) (number : Nat) : List (List Char) → List Sentence
  | [] => []
  | line :: rest =>
      parseLine base number (dropEndWhile (· == '\r') line) :: parseLines base (number + 1) rest

def parse (text name base : String) : Scene :=
  let sentences := parseLines base.toList 1 (lines text.toList)
  { name
    url := base
    sentences
    assets := sentences.flatMap Sentence.assets
    subScenes := (sentences.flatMap Sentence.subScenes).eraseDups }

end SceneScript.Script
