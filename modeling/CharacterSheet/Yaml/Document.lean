import CharacterSheet.Yaml.Merge
import CharacterSheet.Yaml.Scalar

/-!
# Documents of YAML texts

The graph of nodes becomes a value.  Scalars are converted when a collection that holds them is
filled, and collections are filled in the order in which they are found, so of two faults the one
that is less deep shows.  Of equal keys the last one counts.
-/

namespace CharacterSheet.Yaml

/-! ## Filling collections -/

/-- What a node stands for; the parts of a collection go by their numbers. -/
inductive Part where
  | scalar (v : Value)
  | list (items : List Nat)
  | pairs (entries : List (Nat × Nat))
  | set (members : List Nat)
  | map (entries : List (Nat × Nat))
  deriving Repr

/-- A collection with nothing in it, for a tag that collections have. -/
def Part.empty? : Tag → Option Part
  | .seq => some (.list [])
  | .pairs => some (.pairs [])
  | .set => some (.set [])
  | .map => some (.map [])
  | _ => none

/-- The nodes of a document, what they stand for as far as that is known, and the collections that
are to be filled, the last one first. -/
structure Filling where
  graph : Graph
  parts : Array (Option Part)
  waiting : List Nat := []

abbrev Fill := StateT Filling (Except Fault)

namespace Fill

def refuse {α : Type} : Fill α := throw .notADocument

def lift {α : Type} (r : Except Fault α) : Fill α := StateT.lift r

def setPart (n : Nat) (p : Part) : Fill Unit :=
  modify fun s ↦ { s with parts := s.parts.setIfInBounds n (some p) }

def part? (n : Nat) : Fill (Option Part) := return (← get).parts.getD n none

end Fill

open Fill

/-- The text of a node.  A mapping has the text of its main value. -/
def Graph.text (g : Graph) : Nat → Nat → Except Fault String
  | 0, _ => .error .notADocument
  | fuel + 1, n => match g.content n with
    | .scalar s => .ok s
    | .sequence _ => .error .notADocument
    | .mapping es => match es.find? fun e ↦ g.tag e.1 = .main with
      | some e => g.text fuel e.2
      | none => .error .notADocument

/-- The value of a node with the tag of a scalar.  A moment has to be given as a scalar. -/
def Graph.scalar (g : Graph) (n : Nat) : Except Fault Value := do
  let s ← g.text (g.size + 1) n
  match g.tag n, g.content n with
  | .timestamp, .mapping _ => refuseScalar .momentNotText
  | tag, _ => scalarValue tag s

/-- Looks at a node: a scalar is converted, a collection waits to be filled. -/
def look (n : Nat) : Fill Unit := do
  if (← part? n).isNone then
    let g := (← get).graph
    match Part.empty? (g.tag n) with
    | some p =>
      setPart n p
      modify fun s ↦ { s with waiting := n :: s.waiting }
    | none =>
      let v ← lift (g.scalar n)
      setPart n (.scalar v)

/-- Looks at an entry.  Its key has to be a scalar if it is the key of a map. -/
def lookAtEntry (ofMap : Bool) (e : Nat × Nat) : Fill Unit := do
  look e.1
  match ofMap, ← part? e.1 with
  | false, _ => look e.2
  | true, some (.scalar _) => look e.2
  | _, _ => refuse

/-- The entries of a mapping, its merge keys resolved. -/
def mapEntries (n : Nat) : Fill (List (Nat × Nat)) := do
  match (← get).graph.content n with
  | .mapping _ =>
    let g ← lift ((← get).graph.merge n)
    modify fun s ↦ { s with graph := g }
    (g.entries n).forM (lookAtEntry true)
    return g.entries n
  | _ => refuse

def onlyEntry (n : Nat) : Fill (Nat × Nat) := do
  match (← get).graph.content n with
  | .mapping [e] =>
    lookAtEntry false e
    return e
  | _ => refuse

def sequenceItems (n : Nat) : Fill (List Nat) := do
  match (← get).graph.content n with
  | .sequence items => return items
  | _ => refuse

def fill (n : Nat) : Fill Unit := do
  match ← part? n with
  | some (.list _) =>
    let items ← sequenceItems n
    items.forM look
    setPart n (.list items)
  | some (.pairs _) =>
    let items ← sequenceItems n
    setPart n (.pairs (← items.mapM onlyEntry))
  | some (.set _) => setPart n (.set ((← mapEntries n).map Prod.fst))
  | some (.map _) => setPart n (.map (← mapEntries n))
  | _ => return

/-- Fills all collections that wait, and those that are found on the way. -/
def fillAll : Nat → Fill Unit
  | 0 => return
  | fuel + 1 => do
    let batch := (← get).waiting.reverse
    if !batch.isEmpty then
      modify fun s ↦ { s with waiting := [] }
      batch.forM fill
      fillAll fuel

/-! ## Values -/

/-- How often a collection is followed into itself. -/
def turns : Nat := 4

/-- A map in which the last of equal keys counts. -/
def mapOf (entries : List (Value × Value)) : Value :=
  .map (entries.foldl (fun fields e ↦ Value.putField e.1 e.2 fields) [])

/-- A set in which the first of equal members counts. -/
def setOf (members : List Value) : Value :=
  .set ((members.foldl (fun fields v ↦ Value.putField v .null fields) []).map Prod.fst)

/-- A value of the same kind with nothing in it. -/
def Part.hollow : Part → Value
  | .scalar v => v
  | .list _ => .list []
  | .pairs _ => .list []
  | .set _ => .set []
  | .map _ => .map []

/-- The values of nodes that have been valued, as far as these do not hold themselves. -/
abbrev Known := Array (Option Value)

/-- The value of a node, and whether it is the same wherever it stands.  `path` are the collections
around it, and `left` tells how often they may be followed into themselves. -/
def valueAt (parts : Array (Option Part)) :
    Nat → Nat → List Nat → Nat → StateM Known (Value × Bool)
  | 0, _, _, _ => return (.null, false)
  | fuel + 1, left, path, n => do
    match (← get).getD n none, parts.getD n none with
    | some v, _ => return (v, true)
    | none, none => return (.null, true)
    | none, some part =>
      let inside := path.contains n
      if inside && left = 0 then return (.again part.hollow, false)
      let path := if inside then [n] else n :: path
      let at' (m : Nat) := valueAt parts fuel (if inside then left - 1 else left) path m
      let both (e : Nat × Nat) : StateM Known ((Value × Value) × Bool) := do
        let (a, aloneA) ← at' e.1
        let (b, aloneB) ← at' e.2
        return ((a, b), aloneA && aloneB)
      let (v, same) ← match part with
        | .scalar v => pure (v, true)
        | .list items => do
          let vs ← items.mapM at'
          pure (Value.list (vs.map Prod.fst), vs.all Prod.snd)
        | .pairs es => do
          let vs ← es.mapM both
          pure (Value.list (vs.map fun e ↦ .tuple [e.1.1, e.1.2]), vs.all Prod.snd)
        | .set members => do
          let vs ← members.mapM at'
          pure (setOf (vs.map Prod.fst), vs.all Prod.snd)
        | .map es => do
          let vs ← es.mapM both
          pure (mapOf (vs.map Prod.fst), vs.all Prod.snd)
      if inside then return (.again v, false)
      if same then modify fun known ↦ known.setIfInBounds n (some v)
      return (v, same)

/-- The value of a node, and of all nodes in it. -/
def valueOf (g : Graph) (n : Nat) : Except Fault Value := do
  let start : Filling := { graph := g, parts := Array.replicate g.size none }
  let ((), s) ← (do look n; fillAll (g.size + 1)).run start
  let fuel := (turns + 1) * (g.size + 1)
  return ((valueAt s.parts fuel turns [] n).run (Array.replicate g.size none)).1.1

/-- The document that a text holds; an empty text holds nothing. -/
def read (text : Source) : Except Fault Value := do
  match ← documentOf (tokens text) with
  | none => return .null
  | some (g, root) => valueOf g root

end CharacterSheet.Yaml
