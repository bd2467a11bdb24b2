import SceneScript.Files.Path
import SceneScript.Text.Numeral

/-!
A tree of folders and regular files. Devices are left out, and there is room for every write. So an
operation that fails leaves the tree as it was, except that the making of several folders can fail
after some are made. For writing this is an assumption: systems cut a file to nothing before they
write it, and a write that breaks off would leave it so.
-/

namespace SceneScript

inductive Content where
  | text (s : String)
  | binary (bytes : List UInt8)
deriving DecidableEq, Repr

def Content.ofBytes (bytes : List UInt8) : Content :=
  match String.fromUTF8? (ByteArray.mk bytes.toArray) with
  | some s => text s
  | none => binary bytes

inductive FileError where
  | notFound
  | exists
  | notAFolder
  | isAFolder
  | nameTooLong
  | nulInName
  | notText
deriving DecidableEq, Repr

def FileError.message : FileError → String
  | notFound => "No such file or directory (os error 2)"
  | .exists => "File exists (os error 17)"
  | notAFolder => "Not a directory (os error 20)"
  | isAFolder => "Is a directory (os error 21)"
  | nameTooLong => "File name too long (os error 36)"
  | nulInName => "file name contained an unexpected NUL byte"
  | notText => "stream did not contain valid UTF-8"

inductive Entry where
  | folder
  | file (content : Content)
deriving DecidableEq, Repr

/-- The names that lead from the root to an entry. -/
abbrev Place := List String

def Place.text (place : Place) : String :=
  "/" ++ "/".intercalate place

structure Directory where
  home : Place
  entries : List (Place × Entry)
deriving DecidableEq, Repr

namespace Directory

def stations (here : Place) : List Step → List Place
  | [] => []
  | .up :: steps => stations here.dropLast steps
  | .enter name :: steps => (here ++ [name]) :: stations (here ++ [name]) steps

def bare (home : Place) : Directory where
  home := home
  entries := (stations [] (home.map .enter)).map fun place => (place, .folder)

def entry? (d : Directory) : Place → Option Entry
  | [] => some .folder
  | place => d.entries.lookup place

def content? (d : Directory) (place : Place) : Option Content :=
  match d.entry? place with
  | some (.file content) => some content
  | _ => none

def put (place : Place) (entry : Entry) : List (Place × Entry) → List (Place × Entry)
  | [] => [(place, entry)]
  | (p, e) :: rest => if p = place then (p, entry) :: rest else (p, e) :: put place entry rest

def set (d : Directory) (place : Place) (entry : Entry) : Directory :=
  { d with entries := put place entry d.entries }

def greatestName : Nat := 255

def advance (d : Directory) (here : Place) : Step → Except FileError Place
  | .up => .ok here.dropLast
  | .enter name =>
      if greatestName < Text.byteLength name.toList then .error .nameTooLong
      else if (d.entry? (here ++ [name])).isSome then .ok (here ++ [name])
      else .error .notFound

def walk (d : Directory) (here : Place) : List Step → Except FileError Place
  | [] => .ok here
  | step :: steps =>
      match d.entry? here with
      | some .folder => do
          let next ← d.advance here step
          d.walk next steps
      | some (.file _) => .error .notAFolder
      | none => .error .notFound

def start (d : Directory) (p : Path) : Place :=
  if p.absolute then [] else d.home

def resolve (d : Directory) (p : Path) : Except FileError Place :=
  d.walk (d.start p) p.steps

def isFolder (d : Directory) (p : Path) : Bool :=
  match d.resolve p with
  | .ok place => d.entry? place == some .folder
  | .error _ => false

/-- A text that no path can have: the empty one leads nowhere, and a name has no NUL. -/
def refused? (path : String) : Option FileError :=
  if path.isEmpty then some .notFound
  else if path.toList.contains '\x00' then some .nulInName
  else none

def read (d : Directory) (path : String) : Except FileError String :=
  match refused? path with
  | some e => .error e
  | none => do
      let p := Path.ofText path
      match d.entry? (← d.resolve p) with
      | some (.file content) =>
          if p.ending != .name then .error .notAFolder
          else
            match content with
            | .text s => .ok s
            | .binary _ => .error .notText
      | some .folder => .error .isAFolder
      | none => .error .notFound

def vacancy (d : Directory) (p : Path) (name : String) : Except FileError Place := do
  let folder ← d.resolve p.parent
  match d.entry? folder with
  | some .folder =>
      if greatestName < Text.byteLength name.toList then .error .nameTooLong
      else .ok (folder ++ [name])
  | some (.file _) => .error .notAFolder
  | none => .error .notFound

def write (d : Directory) (path : String) (s : String) : Except FileError Directory :=
  match refused? path with
  | some e => .error e
  | none =>
      let p := Path.ofText path
      match p.fileName?, p.ending with
      | some name, .name => do
          let place ← d.vacancy p name
          match d.entry? place with
          | some .folder => .error .isAFolder
          | _ => .ok (d.set place (.file (.text s)))
      | some _, .slash => do
          let _ ← d.resolve p.parent
          .error .isAFolder
      | _, _ => do
          match d.entry? (← d.resolve p) with
          | some (.file _) => .error .notAFolder
          | _ => .error .isAFolder

def makeFolder (d : Directory) (p : Path) : Except FileError Directory :=
  match p.fileName? with
  | some name => do
      let place ← d.vacancy p name
      if (d.entry? place).isSome then .error .exists
      else .ok (d.set place .folder)
  | none => do
      let _ ← d.resolve p
      .error .exists

def ensureFolder (d : Directory) (p : Path) : Directory × Except FileError Unit :=
  match d.makeFolder p with
  | .ok made => (made, .ok ())
  | .error e => if d.isFolder p then (d, .ok ()) else (d, .error e)

/-- The tree with folders at the path of the last steps `steps` (the last one first) and wherever
it leads through. -/
def makeFolders (d : Directory) (absolute : Bool) :
    List Step → Directory × Except FileError Unit
  | [] => (d, .ok ())
  | step :: steps =>
      let p : Path := ⟨absolute, (step :: steps).reverse, .name⟩
      match d.ensureFolder p with
      | (_, .error .notFound) =>
          match d.makeFolders absolute steps with
          | (made, .ok ()) => made.ensureFolder p
          | failed => failed
      | result => result

def hasNul : Step → Bool
  | .up => false
  | .enter name => name.toList.contains '\x00'

def save (d : Directory) (path : String) (s : String) : Directory × Except FileError Unit :=
  let p := Path.ofText path
  if p.parent.steps.any hasNul then (d, .error .nulInName)
  else
    match d.makeFolders p.absolute p.parent.steps.reverse with
    | (made, .ok ()) =>
        match made.write path s with
        | .ok written => (written, .ok ())
        | .error e => (made, .error e)
    | failed => failed

def insert (d : Directory) (path : String) (entry : Entry) : Directory :=
  let p := Path.ofText path
  let (made, _) := d.makeFolders p.absolute p.parent.steps.reverse
  match p.fileName?.map (made.vacancy p) with
  | some (.ok place) => made.set place entry
  | _ => made

def remove (d : Directory) (path : String) : Directory :=
  match refused? path, d.resolve (Path.ofText path) with
  | none, .ok place => { d with entries := d.entries.filter fun e => !place.isPrefixOf e.1 }
  | _, _ => d

def changesSince (d earlier : Directory) : List (Place × Entry) :=
  d.entries.filter fun e => earlier.entry? e.1 != some e.2

def homeText (d : Directory) : String :=
  Place.text d.home

end Directory
end SceneScript
