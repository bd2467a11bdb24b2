namespace SceneScript.Text

def cut? (c : Char) : List Char → Option (List Char × List Char)
  | [] => none
  | d :: s =>
      if d = c then some ([], s)
      else (cut? c s).map fun p => (d :: p.1, p.2)

def splitDash : List Char → List (List Char)
  | [] => [[]]
  | ' ' :: '-' :: s => [] :: splitDash s
  | c :: s => (splitDash s).modifyHead (c :: ·)

def lines (s : List Char) : List (List Char) :=
  s.splitOn '\n'

def byteLength : List Char → Nat
  | [] => 0
  | c :: s => c.utf8Size + byteLength s

def before? (w : List Char) : List Char → Option (List Char)
  | [] => if w.isEmpty then some [] else none
  | c :: s =>
      if w.isPrefixOf (c :: s) then some []
      else (before? w s).map (c :: ·)

end SceneScript.Text
