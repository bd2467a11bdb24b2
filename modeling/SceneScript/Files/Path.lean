import SceneScript.Text.Split

namespace SceneScript

inductive Step where
  | up
  | enter (name : String)
deriving DecidableEq, Repr

inductive PathEnding where
  | name
  | slash
  | dot
deriving DecidableEq, Repr

structure Path where
  absolute : Bool
  steps : List Step
  ending : PathEnding
deriving DecidableEq, Repr

namespace Path

def stepOf? (piece : List Char) : Option Step :=
  if piece.isEmpty || piece == ['.'] then none
  else if piece == ['.', '.'] then some .up
  else some (.enter (String.ofList piece))

def ofText (text : String) : Path :=
  let pieces := text.toList.splitOn '/'
  { absolute := text.toList.head? == some '/'
    steps := pieces.filterMap stepOf?
    ending := match pieces.getLast? with
      | some [] => .slash
      | some ['.'] => .dot
      | _ => .name }

def parent (p : Path) : Path :=
  { p with steps := p.steps.dropLast, ending := .name }

def fileName? (p : Path) : Option String :=
  match p.steps.getLast? with
  | some (.enter name) => some name
  | _ => none

def joined (folder name : String) : String :=
  if folder.isEmpty || folder.toList.getLast? == some '/' then folder ++ name
  else folder ++ "/" ++ name

end Path
end SceneScript
