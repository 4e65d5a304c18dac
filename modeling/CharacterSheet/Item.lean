import CharacterSheet.DataCode

/-!
# Items

An item is worn in a slot or kept as a training.  Its data code, its encumbrance and its structured
extras are held as found: an item need not have been checked, and one that cannot be processed
contributes nothing.
-/

namespace CharacterSheet

inductive ItemType where
  | weapon | armor | shield | accessory | training | misc
  deriving DecidableEq, Repr

namespace ItemType

def name : ItemType → String
  | weapon => "weapon"
  | armor => "armor"
  | shield => "shield"
  | accessory => "accessory"
  | training => "training"
  | misc => "misc"

def all : List ItemType := [weapon, armor, shield, accessory, training, misc]

end ItemType

inductive WeightClass where
  | light | heavy
  deriving DecidableEq, Repr

namespace WeightClass

def name : WeightClass → String
  | light => "light"
  | heavy => "heavy"

def all : List WeightClass := [light, heavy]

end WeightClass

structure Item where
  id : String
  name : String := ""
  description : String := ""
  /-- The category, if it is one of those that are known. -/
  category : Option ItemType := some .misc
  weight : Option WeightClass := none
  code : Value := .null
  encumbrance : Value := .int 0
  detections : Value := .map []
  effects : Value := .list []
  immunities : Value := .list []
  deriving Repr

/-- The members of a collection: the items of a list, the characters of a text, the keys of a
map. -/
def Value.members (v : Value) : Except SourceError (List Value) :=
  match v.alone with
  | .list items => .ok items
  | .set members => .ok members
  | .tuple items => .ok items
  | .text s => .ok ((Text.codePoints s.toList).map fun n ↦ .text (String.ofList (Text.hold n)))
  | .bytes bs => .ok (bs.map fun b ↦ .int (Int.ofNat b))
  | .map entries => .ok (entries.map Prod.fst)
  | v => .error (.notACollection v.kind)

/-- What an item brings while it is worn. -/
structure Gear where
  delta : Delta
  immunities : List Value
  penalty : Int
  detections : List (Value × Int)
  effects : List Value

namespace Item

/-- Immunities are a set, and what holds a list, a set or a map cannot be a member of one. -/
def immunityMembers (v : Value) : Except SourceError (List Value) := do
  let members ← v.members
  match Value.firstUnhashable? members with
  | some kind => .error (.notAMember kind)
  | none => .ok members

/-- Detections with a value, as integers. -/
def detectionValues (v : Value) : Except SourceError (List (Value × Int)) :=
  match v.alone with
  | .map entries =>
    (entries.filter fun e ↦ e.2.truthy).mapM fun e ↦ do
      let n ← Integer.ofValue e.2
      return (e.1, n)
  | v => .error (.notAMap v.kind)

def effectMembers (v : Value) : Except SourceError (List Value) := do
  let members ← v.members
  return members.filter Value.truthy

/-- Reads the extras of an item, in the order of immunities, encumbrance, detections and effects. -/
def extras (item : Item) (d : Delta) : Except SourceError Gear := do
  let immunities ← immunityMembers item.immunities
  let penalty ← Integer.ofValue item.encumbrance
  let detections ← detectionValues item.detections
  let effects ← effectMembers item.effects
  return { delta := d, immunities, penalty, detections, effects }

/-- What a worn item brings: its data code first, then its extras. -/
def gear (item : Item) : DataCode.Reading Gear :=
  (DataCode.readValue item.code).andThen fun d ↦ ⟨[], item.extras d⟩

/-- The delta of an item's data code. -/
def training (item : Item) : DataCode.Reading Delta := DataCode.readValue item.code

end Item

/-- The failure of a source, in the name of the source. -/
def sourceFailure (what : String) (source : String) (e : SourceError) : Event :=
  .reported ⟨.sourceFailure, "could not process " ++ what ++ ": " ++ e.message, none, some source⟩
    true

/-- What is recorded about a reading, in the name of a source. -/
def DataCode.Reading.events {α : Type} (what source : String) (r : Reading α) : List Event :=
  (r.diagnostics (some source)).map (.reported · false) ++
    match r.result with
    | .ok _ => []
    | .error e => [sourceFailure what source e]

end CharacterSheet
