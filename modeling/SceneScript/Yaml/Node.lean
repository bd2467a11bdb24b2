import SceneScript.Yaml.Token

namespace SceneScript.Yaml

structure Properties where
  anchor : Option (List Char) := none
  tag : Option (List Char) := none
deriving DecidableEq, Repr

inductive Node where
  | aliasOf (name : List Char)
  | scalar (properties : Properties) (style : Style) (text : List Char)
  | sequence (properties : Properties) (items : List Node)
  | mapping (properties : Properties) (entries : List (Node × Node))
deriving Repr

namespace Node

def empty : Node :=
  scalar {} .plain []

abbrev Handles := List (List Char × List Char)

def standardHandles : Handles :=
  [(['!'], ['!']), (['!', '!'], "tag:yaml.org,2002:".toList)]

def fullTag? (handles : Handles) (handle suffix : List Char) : Option (List Char) :=
  if handle.isEmpty then some suffix
  else ((handles ++ standardHandles).lookup handle).map (· ++ suffix)

def properties? (handles : Handles) : List Token → Option (Properties × List Token)
  | .anchor a :: .tag h s :: ts => (fullTag? handles h s).map fun t => (⟨some a, some t⟩, ts)
  | .anchor a :: ts => some (⟨some a, none⟩, ts)
  | .tag h s :: .anchor a :: ts => (fullTag? handles h s).map fun t => (⟨some a, some t⟩, ts)
  | .tag h s :: ts => (fullTag? handles h s).map fun t => (⟨none, some t⟩, ts)
  | ts => some ({}, ts)

/-- A scalar that is written; a lone exclamation mark is no tag of it. -/
def written (p : Properties) (style : Style) (text : List Char) : Node :=
  scalar { p with tag := p.tag.filter (· != ['!']) } style text

/-- Where nodes can stand: outside brackets, as keys and values outside brackets, where a sequence
need not be indented, and inside brackets. -/
inductive Context where
  | block
  | entry
  | flow
deriving DecidableEq, Repr

def isBlockStop (more : List Token) : List Token → Bool
  | [] => false
  | t :: _ => t == .blockEnd || more.contains t

def isFlowStop (stops : List Token) : List Token → Bool
  | [] => false
  | t :: _ => stops.contains t

mutual

def node? (handles : Handles) : Nat → Context → List Token → Option (Node × List Token)
  | 0, _, _ => none
  | _ + 1, _, .aliasOf name :: ts => some (aliasOf name, ts)
  | fuel + 1, context, ts => do
      let (p, rest) ← properties? handles ts
      match context, rest with
      | .entry, .blockEntry :: _ => do
          let (items, rest) ← plainItems? handles fuel rest
          some (sequence p items, rest)
      | _, .scalar style text :: rest => some (written p style text, rest)
      | _, .flowSequence :: rest => do
          let (items, rest) ← flowItems? handles fuel true rest
          some (sequence p items, rest)
      | _, .flowMapping :: rest => do
          let (entries, rest) ← flowEntries? handles fuel true rest
          some (mapping p entries, rest)
      | .flow, _ => bare p rest
      | _, .blockSequence :: rest => do
          let (items, rest) ← items? handles fuel rest
          some (sequence p items, rest)
      | _, .blockMapping :: rest => do
          let (entries, rest) ← entries? handles fuel rest
          some (mapping p entries, rest)
      | _, _ => bare p rest
where
  bare (p : Properties) (rest : List Token) : Option (Node × List Token) :=
    if p.anchor.isSome || p.tag.isSome then some (scalar p .plain [], rest) else none

def items? (handles : Handles) : Nat → List Token → Option (List Node × List Token)
  | 0, _ => none
  | fuel + 1, .blockEntry :: ts => do
      let (item, rest) ←
        if isBlockStop [.blockEntry] ts then some (empty, ts) else node? handles fuel .block ts
      let (items, rest) ← items? handles fuel rest
      some (item :: items, rest)
  | _ + 1, .blockEnd :: ts => some ([], ts)
  | _ + 1, _ => none

def plainItems? (handles : Handles) : Nat → List Token → Option (List Node × List Token)
  | 0, _ => none
  | fuel + 1, .blockEntry :: ts => do
      let (item, rest) ←
        if isBlockStop [.blockEntry, .key, .value] ts then some (empty, ts)
        else node? handles fuel .block ts
      let (items, rest) ← plainItems? handles fuel rest
      some (item :: items, rest)
  | _ + 1, ts => some ([], ts)

def entries? (handles : Handles) : Nat → List Token → Option (List (Node × Node) × List Token)
  | 0, _ => none
  | fuel + 1, .key :: ts => do
      let (key, rest) ←
        if isBlockStop [.key, .value] ts then some (empty, ts)
        else node? handles fuel .entry ts
      let (value, rest) ←
        match rest with
        | .value :: ts =>
            if isBlockStop [.key, .value] ts then some (empty, ts)
            else node? handles fuel .entry ts
        | _ => some (empty, rest)
      let (entries, rest) ← entries? handles fuel rest
      some ((key, value) :: entries, rest)
  | _ + 1, .blockEnd :: ts => some ([], ts)
  | _ + 1, _ => none

def flowItems? (handles : Handles) : Nat → Bool → List Token → Option (List Node × List Token)
  | 0, _, _ => none
  | _ + 1, _, .flowSequenceEnd :: ts => some ([], ts)
  | fuel + 1, first, ts => do
      let ts ← if first then some ts else match ts with
        | .flowEntry :: ts => some ts
        | _ => none
      match ts with
      | .flowSequenceEnd :: ts => some ([], ts)
      | .key :: ts => do
          let stops := [.flowEntry, .flowSequenceEnd]
          let (key, rest) ←
            if isFlowStop (.value :: stops) ts then some (empty, ts.tail)
            else node? handles fuel .flow ts
          let (value, rest) ←
            match rest with
            | .value :: ts =>
                if isFlowStop stops ts then some (empty, ts) else node? handles fuel .flow ts
            | _ => some (empty, rest)
          let (items, rest) ← flowItems? handles fuel false rest
          some (mapping {} [(key, value)] :: items, rest)
      | _ => do
          let (item, rest) ← node? handles fuel .flow ts
          let (items, rest) ← flowItems? handles fuel false rest
          some (item :: items, rest)

def flowEntries? (handles : Handles) :
    Nat → Bool → List Token → Option (List (Node × Node) × List Token)
  | 0, _, _ => none
  | _ + 1, _, .flowMappingEnd :: ts => some ([], ts)
  | fuel + 1, first, ts => do
      let ts ← if first then some ts else match ts with
        | .flowEntry :: ts => some ts
        | _ => none
      let stops := [.flowEntry, .flowMappingEnd]
      match ts with
      | .flowMappingEnd :: ts => some ([], ts)
      | .key :: ts => do
          let (key, rest) ←
            if isFlowStop (.value :: stops) ts then some (empty, ts)
            else node? handles fuel .flow ts
          let (value, rest) ←
            match rest with
            | .value :: ts =>
                if isFlowStop stops ts then some (empty, ts) else node? handles fuel .flow ts
            | _ => some (empty, rest)
          let (entries, rest) ← flowEntries? handles fuel false rest
          some ((key, value) :: entries, rest)
      | _ => do
          let (key, rest) ← node? handles fuel .flow ts
          let (entries, rest) ← flowEntries? handles fuel false rest
          some ((key, empty) :: entries, rest)

end

def directives? (versioned : Bool) (handles : Handles) :
    List Token → Option (Bool × Handles × List Token)
  | .version major minor :: ts =>
      if versioned || major != 1 || !(minor == 1 || minor == 2) then none
      else directives? true handles ts
  | .handle name start :: ts =>
      if (handles.lookup name).isSome then none
      else directives? versioned (handles ++ [(name, start)]) ts
  | ts => some (versioned, handles, ts)

def isBare : List Token → Bool
  | .version _ _ :: _ => false
  | .handle _ _ :: _ => false
  | .documentStart :: _ => false
  | _ => true

def isVacant : List Token → Bool
  | [] => true
  | .version _ _ :: _ => true
  | .handle _ _ :: _ => true
  | .documentStart :: _ => true
  | .documentEnd :: _ => true
  | _ => false

/-- The root of the only document; `some none` where there is no document. -/
def ofTokens? (ts : List Token) : Option (Option Node) :=
  let fuel := 4 * ts.length + 4
  if ts.isEmpty then some none
  else do
    let (root, rest) ←
      if isBare ts then node? [] fuel .block ts
      else do
        let (_, handles, rest) ← directives? false [] ts
        match rest with
        | .documentStart :: rest =>
            if isVacant rest then some (empty, rest) else node? handles fuel .block rest
        | _ => none
    if (rest.dropWhile (· == .documentEnd)).isEmpty then some (some root) else none

def ofText? (s : List Char) : Option (Option Node) :=
  (tokens? s).bind ofTokens?

end Node
end SceneScript.Yaml
