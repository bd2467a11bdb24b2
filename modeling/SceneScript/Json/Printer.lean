import SceneScript.Json.Basic
import SceneScript.Text.Split

namespace SceneScript.Json

def hexDigit (n : Nat) : Char :=
  if n < 10 then Char.ofNat (48 + n) else Char.ofNat (87 + n)

def escape (c : Char) : List Char :=
  match c with
  | '"' => ['\\', '"']
  | '\\' => ['\\', '\\']
  | '\n' => ['\\', 'n']
  | '\r' => ['\\', 'r']
  | '\t' => ['\\', 't']
  | '\x08' => ['\\', 'b']
  | '\x0c' => ['\\', 'f']
  | _ =>
      if c.toNat < 32 then ['\\', 'u', '0', '0', hexDigit (c.toNat / 16), hexDigit (c.toNat % 16)]
      else [c]

def quote (s : List Char) : List Char :=
  '"' :: s.flatMap escape ++ ['"']

def atom : Json → List Char
  | null => ['n', 'u', 'l', 'l']
  | bool true => ['t', 'r', 'u', 'e']
  | bool false => ['f', 'a', 'l', 's', 'e']
  | number n => n.text
  | string s => quote s.toList
  | array _ => ['[', ']']
  | object _ => ['{', '}']

structure Line where
  depth : Nat
  body : List Char
deriving DecidableEq, Repr

def Line.text (l : Line) : List Char :=
  List.replicate (2 * l.depth) ' ' ++ l.body

def label (key : String) : List Char :=
  quote key.toList ++ [':', ' ']

def separator {α : Type} (rest : List α) : List Char :=
  if rest.isEmpty then [] else [',']

mutual

/-- The lines of a value at a depth, with `before` in front of its first line and `after` behind
its last one. -/
def linesAt (depth : Nat) (before after : List Char) : Json → List Line
  | array (item :: items) =>
      ⟨depth, before ++ ['[']⟩ :: itemLines (depth + 1) (item :: items) ++ [⟨depth, ']' :: after⟩]
  | object (member :: members) =>
      ⟨depth, before ++ ['{']⟩ :: memberLines (depth + 1) (member :: members)
        ++ [⟨depth, '}' :: after⟩]
  | v => [⟨depth, before ++ v.atom ++ after⟩]

def itemLines (depth : Nat) : List Json → List Line
  | [] => []
  | item :: items => linesAt depth [] (separator items) item ++ itemLines depth items

def memberLines (depth : Nat) : List (String × Json) → List Line
  | [] => []
  | (key, value) :: members =>
      linesAt depth (label key) (separator members) value ++ memberLines depth members

end

def prettyLines (v : Json) : List Line :=
  linesAt 0 [] [] v

def pretty (v : Json) : List Char :=
  ['\n'].intercalate (v.prettyLines.map Line.text)

mutual

def compact : Json → List Char
  | array items => '[' :: compactItems items ++ [']']
  | object members => '{' :: compactMembers members ++ ['}']
  | v => v.atom

def compactItems : List Json → List Char
  | [] => []
  | item :: items => item.compact ++ separator items ++ compactItems items

def compactMembers : List (String × Json) → List Char
  | [] => []
  | (key, value) :: members =>
      quote key.toList ++ ':' :: value.compact ++ separator members ++ compactMembers members

end

end SceneScript.Json
