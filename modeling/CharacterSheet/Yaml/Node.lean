import CharacterSheet.Yaml.Tag
import CharacterSheet.Yaml.Token

/-!
# Nodes of YAML texts

The tokens of a text make up a graph of scalars, sequences and mappings.  Nodes are known by their
numbers.  Anchors give names to nodes, and an alias stands for the node that has been given its
name; a collection has its name already inside of itself.  A text holds one document.
-/

namespace CharacterSheet.Yaml

/-- What a node holds; other nodes go by their numbers. -/
inductive Content where
  | scalar (text : String)
  | sequence (items : List Nat)
  | mapping (entries : List (Nat × Nat))
  deriving Repr

structure Node where
  tag : Tag
  content : Content
  deriving Repr

abbrev Graph := Array Node

namespace Graph

/-- A node that is not written. -/
def nothing : Node := ⟨.null, .scalar ""⟩

def node (g : Graph) (n : Nat) : Node := g.getD n nothing

def tag (g : Graph) (n : Nat) : Tag := (g.node n).tag

def content (g : Graph) (n : Nat) : Content := (g.node n).content

def entries (g : Graph) (n : Nat) : List (Nat × Nat) :=
  match g.content n with
  | .mapping es => es
  | _ => []

def setContent (g : Graph) (n : Nat) (c : Content) : Graph :=
  g.setIfInBounds n { g.node n with content := c }

def setTag (g : Graph) (n : Nat) (t : Tag) : Graph := g.setIfInBounds n { g.node n with tag := t }

end Graph

/-- What is left to read, and what has been given a name. -/
structure Reader where
  tokens : List Token
  fault : Option Fault
  /-- Handles of tags with what they stand for. -/
  handles : List (String × String) := []
  anchors : List (String × Nat) := []
  graph : Graph := #[]
  /-- How many collections are open. -/
  depth : Nat := 0

abbrev Reading := StateT Reader (Except Fault)

namespace Reading

def refuse {α : Type} : Reading α := throw .notADocument

def peek : Reading (Option Token) := do
  let r ← get
  match r.tokens, r.fault with
  | [], some f => throw f
  | ts, _ => return ts.head?

def drop : Reading Unit := modify fun r ↦ { r with tokens := r.tokens.drop 1 }

def take (t : Token) : Reading Bool := do
  if (← peek) = some t then
    drop
    return true
  else return false

def expect (t : Token) : Reading Unit := do
  if !(← take t) then refuse

def isNext (ts : List Token) : Reading Bool := return (← peek).any ts.contains

end Reading

def add (tag : Tag) (content : Content) : Reading Nat :=
  modifyGet fun r ↦ (r.graph.size, { r with graph := r.graph.push ⟨tag, content⟩ })

def addNothing : Reading Nat := add .null (.scalar "")

structure Properties where
  anchor : Option String := none
  tag : Option String := none

def takeAnchor : Reading (Option String) := do
  match ← Reading.peek with
  | some (.anchor name) =>
    Reading.drop
    return some name
  | _ => return none

/-- Takes a tag, which has a handle or none. -/
def takeTag : Reading (Option (Option String × String)) := do
  match ← Reading.peek with
  | some (.tag handle suffix) =>
    Reading.drop
    return some (handle, suffix)
  | _ => return none

/-- A tag with what its handle stands for. -/
def resolveTag : Option String × String → Reading String
  | (none, suffix) => return suffix
  | (some handle, suffix) => do
    match (← get).handles.lookup handle with
    | some uri => return uri ++ suffix
    | none => Reading.refuse

def properties : Reading Properties := do
  let (anchor, tag) ← match ← takeAnchor with
    | some name => pure (some name, ← takeTag)
    | none => match ← takeTag with
      | some tag => pure (← takeAnchor, some tag)
      | none => pure (none, none)
  match tag with
  | none => return { anchor }
  | some tag => return { anchor, tag := some (← resolveTag tag) }

def Properties.collection (p : Properties) (tag : Tag) : Tag :=
  match p.tag with
  | none => tag
  | some "!" => tag
  | some uri => .ofUri uri

/-- The tag of a scalar: a tag that is a mere mark makes it go by its form. -/
def Properties.scalar (p : Properties) (text : String) (plain : Bool) : Tag :=
  match p.tag with
  | none => if plain then .ofScalar text else .text
  | some "!" => .ofScalar text
  | some uri => .ofUri uri

/-- Gives a name to a node.  A name is given once. -/
def bindAnchor (anchor : Option String) (n : Nat) : Reading Unit := do
  match anchor with
  | none => return
  | some name =>
    let r ← get
    if (r.anchors.lookup name).isSome then Reading.refuse
    set { r with anchors := (name, n) :: r.anchors }

def addScalar (p : Properties) (text : String) (plain : Bool) : Reading Nat := do
  let n ← add (p.scalar text plain) (.scalar text)
  bindAnchor p.anchor n
  return n

/-- About how many collections can be open before there is no room for another one. -/
def depthLimit : Nat := 480

/-- Reads what is inside a collection. -/
def inside {α : Type} (r : Reading α) : Reading α := do
  let depth := (← get).depth
  if depthLimit ≤ depth then throw (.crash (.stopped "maximum recursion depth exceeded"))
  modify fun s ↦ { s with depth := depth + 1 }
  let a ← r
  modify fun s ↦ { s with depth }
  return a

/-- Adds a sequence, whose items are read once it has its name. -/
def addSequence (p : Properties) (items : Reading (List Nat)) : Reading Nat := do
  let n ← add (p.collection .seq) (.sequence [])
  bindAnchor p.anchor n
  let items ← inside items
  modify fun r ↦ { r with graph := r.graph.setContent n (.sequence items) }
  return n

/-- Adds a mapping, whose entries are read once it has its name. -/
def addMapping (p : Properties) (entries : Reading (List (Nat × Nat))) : Reading Nat := do
  let n ← add (p.collection .map) (.mapping [])
  bindAnchor p.anchor n
  let entries ← inside entries
  modify fun r ↦ { r with graph := r.graph.setContent n (.mapping entries) }
  return n

def aliased (name : String) : Reading Nat := do
  match (← get).anchors.lookup name with
  | some n => return n
  | none => Reading.refuse

/-- Where a node stands decides which collections can be there. -/
inductive Place where
  | flow
  | block
  /-- After a key or a colon, where a sequence need not be indented. -/
  | field
  deriving DecidableEq, Repr

mutual

def node (place : Place) : Nat → Reading Nat
  | 0 => Reading.refuse
  | fuel + 1 => do
    match ← Reading.peek with
    | some (.alias name) =>
      Reading.drop
      aliased name
    | _ =>
      let p ← properties
      match ← Reading.peek with
      | some (.scalar text plain) =>
        Reading.drop
        addScalar p text plain
      | some .blockEntry =>
        if place = .field then addSequence p (looseItems fuel) else absent p
      | some .flowSequenceStart =>
        Reading.drop
        addSequence p (flowItems true fuel)
      | some .flowMappingStart =>
        Reading.drop
        addMapping p (flowEntries true fuel)
      | some .sequenceStart =>
        if place = .flow then absent p
        else
          Reading.drop
          addSequence p (blockItems fuel)
      | some .mappingStart =>
        if place = .flow then absent p
        else
          Reading.drop
          addMapping p (blockEntries fuel)
      | _ => absent p
where
  /-- A node that is not written has at least an anchor or a tag. -/
  absent (p : Properties) : Reading Nat := do
    if p.anchor.isNone && p.tag.isNone then Reading.refuse
    addScalar p "" p.tag.isNone

/-- A node, or nothing before some tokens. -/
def nodeUnless (ends : List Token) (place : Place) : Nat → Reading Nat
  | 0 => Reading.refuse
  | fuel + 1 => do if ← Reading.isNext ends then addNothing else node place fuel

/-- The value of a key, if there is one. -/
def fieldValue (ends : List Token) (place : Place) : Nat → Reading Nat
  | 0 => Reading.refuse
  | fuel + 1 => do
    if ← Reading.take .value then nodeUnless ends place fuel else addNothing

def blockItems : Nat → Reading (List Nat)
  | 0 => Reading.refuse
  | fuel + 1 => do
    if ← Reading.take .blockEntry then
      let item ← nodeUnless [.blockEntry, .blockEnd] .block fuel
      return item :: (← blockItems fuel)
    else
      Reading.expect .blockEnd
      return []

def looseItems : Nat → Reading (List Nat)
  | 0 => Reading.refuse
  | fuel + 1 => do
    if ← Reading.take .blockEntry then
      let item ← nodeUnless [.blockEntry, .key, .value, .blockEnd] .block fuel
      return item :: (← looseItems fuel)
    else return []

def blockEntries : Nat → Reading (List (Nat × Nat))
  | 0 => Reading.refuse
  | fuel + 1 => do
    if ← Reading.take .key then
      let ends := [.key, .value, .blockEnd]
      let key ← nodeUnless ends .field fuel
      let value ← fieldValue ends .field fuel
      return (key, value) :: (← blockEntries fuel)
    else
      Reading.expect .blockEnd
      return []

/-- The items of a sequence in brackets; a key makes a mapping of one entry. -/
def flowItems (first : Bool) : Nat → Reading (List Nat)
  | 0 => Reading.refuse
  | fuel + 1 => do
    if ← Reading.take .flowSequenceEnd then return []
    if !first then Reading.expect .flowEntry
    if ← Reading.take .key then
      let item ← addMapping {} do
        let key ← nodeUnless [.value, .flowEntry, .flowSequenceEnd] .flow fuel
        let value ← fieldValue [.flowEntry, .flowSequenceEnd] .flow fuel
        return [(key, value)]
      return item :: (← flowItems false fuel)
    else if ← Reading.take .flowSequenceEnd then return []
    else
      let item ← node .flow fuel
      return item :: (← flowItems false fuel)

/-- The entries of a mapping in brackets; what is no key has no value. -/
def flowEntries (first : Bool) : Nat → Reading (List (Nat × Nat))
  | 0 => Reading.refuse
  | fuel + 1 => do
    if ← Reading.take .flowMappingEnd then return []
    if !first then Reading.expect .flowEntry
    if ← Reading.take .key then
      let key ← nodeUnless [.value, .flowEntry, .flowMappingEnd] .flow fuel
      let value ← fieldValue [.flowEntry, .flowMappingEnd] .flow fuel
      return (key, value) :: (← flowEntries false fuel)
    else if ← Reading.take .flowMappingEnd then return []
    else
      let key ← node .flow fuel
      let value ← addNothing
      return (key, value) :: (← flowEntries false fuel)

end

/-! ## Documents -/

/-- Handles that need not be declared. -/
def commonHandles : List (String × String) := [("!", "!"), ("!!", Tag.commonUri)]

/-- Reads the directives before a document: at most one version, the first, and handles of tags. -/
def directives (versioned : Bool) : Nat → Reading Unit
  | 0 => Reading.refuse
  | fuel + 1 => do
    match ← Reading.peek with
    | some (.version major) =>
      if versioned || major ≠ 1 then Reading.refuse
      Reading.drop
      directives true fuel
    | some (.tagHandle handle uri) =>
      let r ← get
      if (r.handles.lookup handle).isSome then Reading.refuse
      set { r with handles := r.handles ++ [(handle, uri)] }
      Reading.drop
      directives versioned fuel
    | some .otherDirective =>
      Reading.drop
      directives versioned fuel
    | _ => return

def opensDocument : Token → Bool
  | .version _ => true
  | .tagHandle .. => true
  | .otherDirective => true
  | .documentStart => true
  | _ => false

def document (fuel : Nat) : Reading Nat := do
  if (← Reading.peek).any opensDocument then
    directives false fuel
    Reading.expect .documentStart
    modify fun r ↦ { r with handles := r.handles ++ commonHandles }
    match ← Reading.peek with
    | none => addNothing
    | some t => if opensDocument t || t = .documentEnd then addNothing else node .block fuel
  else
    modify fun r ↦ { r with handles := commonHandles }
    node .block fuel

/-- Nothing but ends of documents may follow a document. -/
def noDocument : Nat → Reading Unit
  | 0 => Reading.refuse
  | fuel + 1 => do
    if ← Reading.take .documentEnd then noDocument fuel
    else if (← Reading.peek).isSome then
      modify fun r ↦ { r with handles := [] }
      directives false fuel
      let _ ← Reading.peek
      Reading.refuse

/-- The document of a text, if there is one. -/
def onlyDocument (fuel : Nat) : Reading (Option Nat) := do
  if (← Reading.peek).isNone then return none
  let root ← document fuel
  noDocument fuel
  return some root

/-- The nodes of a text and the number of the topmost one, if the text holds a document. -/
def documentOf (ts : Tokens) : Except Fault (Option (Graph × Nat)) := do
  let start : Reader := { tokens := ts.known, fault := ts.fault }
  let (root, r) ← (onlyDocument (4 * ts.known.length + 4)).run start
  return root.map fun n ↦ (r.graph, n)

end CharacterSheet.Yaml
