import PipingAssembly.Yaml.Token

/-!
# Nodes of a YAML document

A document is a tree of scalars, sequences and mappings, each with an optional tag. A reference to
an anchor stands for the node that carries it. Each node has the place where it begins.
-/

namespace PipingAssembly.Yaml

/-- A node of a document. -/
inductive Node where
  | scalar (place : Place) (tag : Option String) (text : String) (isPlain : Bool)
  | sequence (place : Place) (tag : Option String) (items : List Node)
  | mapping (place : Place) (tag : Option String) (entries : List (Node × Node))
  deriving Inhabited

/-- The scalar that stands where nothing is written. -/
def Node.empty (place : Place) : Node := .scalar place none "" true

/-- Why a text is not read as one document. -/
inductive Fault where
  /-- the text has no reading from a place on, or what begins there may not stand there -/
  | unreadable (place : Place)
  | severalDocuments
  deriving DecidableEq, Repr

/-- The place of a fault, if it has one. -/
def Fault.place? : Fault → Option Place
  | unreadable place => some place
  | severalDocuments => none

/-- The tokens that are left, the anchored nodes and the meaning of the handles of tags. -/
structure Reading where
  tokens : Tokens
  anchors : List (String × Node)
  handles : List (String × String)

/-- The handles that need no directive. -/
def defaultHandles : List (String × String) :=
  [("!", "!"), ("!!", "tag:yaml.org,2002:")]

namespace Reading

/-- The next token and its place. -/
def peek (r : Reading) : Except Place (Token × Place) :=
  match r.tokens.list with
  | t :: _ => .ok t
  | [] => .error r.tokens.stop

def skip (r : Reading) : Reading :=
  { r with tokens := { r.tokens with list := r.tokens.list.tail } }

/-- The next token may not stand where it does. -/
def fail {α : Type} (r : Reading) : Except Place α := do
  let (_, place) ← r.peek
  throw place

/-- Whether the next token is one of some. -/
def isAt (r : Reading) (ts : List Token) : Except Place Bool := do
  let (t, _) ← r.peek
  return ts.contains t

/-- Reads an anchor, if there is one. -/
def anchor (r : Reading) : Except Place (Option String × Reading) := do
  match ← r.peek with
  | (.anchor name, _) => return (some name, r.skip)
  | _ => return (none, r)

/-- Reads a tag, if there is one: its handle, the rest of it, and its place. -/
def tag (r : Reading) : Except Place (Option (String × String × Place) × Reading) := do
  match ← r.peek with
  | (.tag handle suffix, place) => return (some (handle, suffix, place), r.skip)
  | _ => return (none, r)

/-- The text of a tag, whose handle has to be known. -/
def tagText (r : Reading) :
    Option (String × String × Place) → Except Place (Option String)
  | none => .ok none
  | some ("", suffix, _) => .ok (some suffix)
  | some (handle, suffix, place) =>
    match r.handles.lookup handle with
    | some stem => .ok (some (stem ++ suffix))
    | none => .error place

/-- Reads the anchor and the tag of a node, in either order. -/
def properties (r : Reading) :
    Except Place (Option String × Option String × Reading) := do
  let (a, r) ← r.anchor
  let (t, r) ← r.tag
  let (a, r) ← if a.isNone then r.anchor else pure (a, r)
  let _ ← r.peek
  return (a, ← r.tagText t, r)

/-- Records a node that carries an anchor. -/
def record (name : Option String) (n : Node) (r : Reading) : Node × Reading :=
  match name with
  | some a => (n, { r with anchors := (a, n) :: r.anchors })
  | none => (n, r)

mutual

/-- Reads a node. In a block it may be a block collection; where `indentless` holds, entries of a
sequence may begin without a token that opens it. -/
def node (block indentless : Bool) : Nat → Reading → Except Place (Node × Reading)
  | 0, r => r.fail
  | fuel + 1, r => do
    let (t, place) ← r.peek
    match t with
    | .reference name =>
      match r.anchors.lookup name with
      | some n => return (n, r.skip)
      | none => r.fail
    | _ =>
      let (anchor, tag, r) ← r.properties
      let (t, _) ← r.peek
      let (n, r) ←
        match t with
        | .scalar text isPlain => pure (Node.scalar place tag text isPlain, r.skip)
        | .flowSequenceStart => do
          let (items, r) ← flowItems true fuel r.skip
          pure (Node.sequence place tag items, r)
        | .flowMappingStart => do
          let (entries, r) ← flowEntries true fuel r.skip
          pure (Node.mapping place tag entries, r)
        | _ =>
          if indentless && t == .blockEntry then do
            let (items, r) ← bareItems fuel r
            pure (Node.sequence place tag items, r)
          else if block && t == .blockSequenceStart then do
            let (items, r) ← blockItems fuel r.skip
            pure (Node.sequence place tag items, r)
          else if block && t == .blockMappingStart then do
            let (entries, r) ← blockEntries fuel r.skip
            pure (Node.mapping place tag entries, r)
          else if anchor.isSome || tag.isSome then pure (Node.scalar place tag "" true, r)
          else r.fail
      return r.record anchor n

/-- Reads a node, or nothing before one of some tokens. -/
def nodeUnless (block indentless : Bool) (ends : List Token) :
    Nat → Reading → Except Place (Node × Reading)
  | 0, r => r.fail
  | fuel + 1, r => do
    let (t, place) ← r.peek
    if ends.contains t then return (.empty place, r) else node block indentless fuel r

/-- Reads the entries of a block sequence. -/
def blockItems : Nat → Reading → Except Place (List Node × Reading)
  | 0, r => r.fail
  | fuel + 1, r => do
    match ← r.peek with
    | (.blockEntry, _) =>
      let (n, r) ← nodeUnless true false [.blockEntry, .blockEnd] fuel r.skip
      let (ns, r) ← blockItems fuel r
      return (n :: ns, r)
    | (.blockEnd, _) => return ([], r.skip)
    | _ => r.fail

/-- Reads the entries of a sequence that no token opens or closes. -/
def bareItems : Nat → Reading → Except Place (List Node × Reading)
  | 0, r => r.fail
  | fuel + 1, r => do
    match ← r.peek with
    | (.blockEntry, _) =>
      let (n, r) ← nodeUnless true false [.blockEntry, .key, .value, .blockEnd] fuel r.skip
      let (ns, r) ← bareItems fuel r
      return (n :: ns, r)
    | _ => return ([], r)

/-- Reads the value of an entry of a mapping, which may be left out. -/
def entryValue (block : Bool) (ends : List Token) :
    Nat → Reading → Except Place (Node × Reading)
  | 0, r => r.fail
  | fuel + 1, r => do
    match ← r.peek with
    | (.value, _) => nodeUnless block block ends fuel r.skip
    | (_, place) => return (.empty place, r)

/-- Reads the entries of a block mapping. -/
def blockEntries : Nat → Reading → Except Place (List (Node × Node) × Reading)
  | 0, r => r.fail
  | fuel + 1, r => do
    match ← r.peek with
    | (.key, _) =>
      let (k, r) ← nodeUnless true true [.key, .value, .blockEnd] fuel r.skip
      let (v, r) ← entryValue true [.key, .value, .blockEnd] fuel r
      let (es, r) ← blockEntries fuel r
      return ((k, v) :: es, r)
    | (.blockEnd, _) => return ([], r.skip)
    | _ => r.fail

/-- Reads the items of a flow sequence; an item may be a mapping with one entry. -/
def flowItems (first : Bool) : Nat → Reading → Except Place (List Node × Reading)
  | 0, r => r.fail
  | fuel + 1, r => do
    if ← r.isAt [.flowSequenceEnd] then return ([], r.skip)
    else
      let r ← if first then pure r else if ← r.isAt [.flowEntry] then pure r.skip else r.fail
      match ← r.peek with
      | (.flowSequenceEnd, _) => return ([], r.skip)
      | (.key, place) =>
        let r := r.skip
        let noKey ← r.isAt [.value, .flowEntry, .flowSequenceEnd]
        let (k, r) ← if noKey then pure (.empty place, r.skip) else node false false fuel r
        let (v, r) ← entryValue false [.flowEntry, .flowSequenceEnd] fuel r
        let (ns, r) ← flowItems false fuel r
        return (.mapping place none [(k, v)] :: ns, r)
      | _ =>
        let (n, r) ← node false false fuel r
        let (ns, r) ← flowItems false fuel r
        return (n :: ns, r)

/-- Reads the entries of a flow mapping; an entry may be a key alone. -/
def flowEntries (first : Bool) :
    Nat → Reading → Except Place (List (Node × Node) × Reading)
  | 0, r => r.fail
  | fuel + 1, r => do
    if ← r.isAt [.flowMappingEnd] then return ([], r.skip)
    else
      let r ← if first then pure r else if ← r.isAt [.flowEntry] then pure r.skip else r.fail
      match ← r.peek with
      | (.flowMappingEnd, _) => return ([], r.skip)
      | (.key, _) =>
        let (k, r) ← nodeUnless false false [.value, .flowEntry, .flowMappingEnd] fuel r.skip
        let (v, r) ← entryValue false [.flowEntry, .flowMappingEnd] fuel r
        let (es, r) ← flowEntries false fuel r
        return ((k, v) :: es, r)
      | (_, place) =>
        let (k, r) ← node false false fuel r
        let (es, r) ← flowEntries false fuel r
        return ((k, Node.empty place) :: es, r)

end

/-- Reads the directives before a document; a second version or a second meaning of a handle has no
reading. -/
def directives : Bool → List (String × String) → List (Token × Place) →
    Except Place (List (String × String) × List (Token × Place))
  | versioned, handles, (.version major minor, place) :: ts =>
    if versioned ∨ major ≠ 1 ∨ (minor ≠ 1 ∧ minor ≠ 2) then .error place
    else directives true handles ts
  | versioned, handles, (.tagHandle handle stem, place) :: ts =>
    if handles.any (·.1 == handle) then .error place
    else directives versioned ((handle, stem) :: handles) ts
  | _, handles, ts => .ok (handles, ts)

/-- The tokens that are left, the next of which has a reading. -/
def remaining (r : Reading) : Except Place (List (Token × Place)) := do
  let _ ← r.peek
  return r.tokens.list

/-- Reads the first document, or nothing where there is none, up to what follows it. Directives are
followed by the mark of a document, and only after that mark the document may be empty. -/
def firstDocument (tokens : Tokens) :
    Except Place (Option Node × List (Token × Place)) := do
  let fuel := 4 * tokens.list.length + 4
  let (handles, list) ← directives false [] tokens.list
  let r : Reading := ⟨{ tokens with list }, [], handles ++ defaultHandles⟩
  match ← r.peek with
  | (.documentStart, _) =>
    let r := r.skip
    let (n, r) ←
      match ← r.peek with
      | (.version .., place) => pure (.empty place, r)
      | (.tagHandle .., place) => pure (.empty place, r)
      | _ => nodeUnless true false [.documentStart, .documentEnd, .textEnd] fuel r
    return (some n, ← r.remaining)
  | (t, _) =>
    if list.length ≠ tokens.list.length then r.fail
    else if t == .textEnd then return (none, list)
    else
      let (n, r) ← node true false fuel r
      return (some n, ← r.remaining)

/-- Reads the one document of a text; only marks of its end may follow it. -/
def onlyDocument (tokens : Tokens) : Except Fault (Option Node) := do
  let (n, list) ← (firstDocument tokens).mapError .unreadable
  match list.dropWhile (·.1 == .documentEnd) with
  | (.textEnd, _) :: _ => return n
  | _ => throw .severalDocuments

end Reading

/-- The one document of a text: no document if the text has only white space and comments. -/
def document (s : String) : Except Fault (Option Node) :=
  Reading.onlyDocument (Tokens.ofText s.toList)

end PipingAssembly.Yaml
