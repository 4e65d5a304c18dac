import CharacterSheet.Build
import CharacterSheet.Overlay

/-!
# Characters

A character owns the inputs of its state: base values, build modules, trainings, equipment, injuries
and conditions.  The working state is derived from them.  A change to an input asks for a recompute;
while a pass runs the request is queued.
-/

namespace CharacterSheet

inductive Status where
  | idle | recomputing
  deriving DecidableEq, Repr

def Status.name : Status → String
  | idle => "idle"
  | recomputing => "recomputing"

structure Character where
  name : String
  /-- Values at creation, before any module. -/
  base : State
  modules : List Module := []
  trainings : List Item := []
  equipment : Equipment := .bare
  injuries : List Injury := []
  conditions : NameSet := .empty
  state : State
  /-- The as-built state, once there is one. -/
  baseline : Option State := none
  diagnostics : List Diagnostic := []
  buildDiagnostics : List Diagnostic := []
  status : Status := .idle
  /-- A change came in while a pass was running. -/
  queued : Bool := false

namespace Character

/-- What a pass over the character reads. -/
def loadout (c : Character) : Loadout where
  owner := c.name
  trainings := c.trainings
  equipment := c.equipment
  injuries := c.injuries
  conditions := c.conditions

end Character

inductive Change where
  | equip (slot : String) (item : Item)
  | unequip (slot : String)
  | addTraining (item : Item)
  | removeTraining (id : String)
  | addInjury (injury : Injury)
  | removeInjury (id : String)
  | addCondition (condition : String)
  | removeCondition (condition : String)

namespace Change

def name : Change → String
  | equip .. => "equip"
  | unequip .. => "unequip"
  | addTraining .. => "add_training"
  | removeTraining .. => "remove_training"
  | addInjury .. => "add_injury"
  | removeInjury .. => "remove_injury"
  | addCondition .. => "add_condition"
  | removeCondition .. => "remove_condition"

/-- What is recorded about a change that has to wait. -/
def detail : Change → List (String × String)
  | equip slot item => [("slot", slot), ("item", item.id)]
  | unequip slot => [("slot", slot)]
  | addTraining item => [("item", item.id)]
  | removeTraining id => [("item", id)]
  | addInjury injury => [("injury", injury.id)]
  | removeInjury id => [("injury", id)]
  | addCondition condition => [("condition", condition)]
  | removeCondition condition => [("condition", condition)]

def slot? : Change → Option String
  | equip slot _ => some slot
  | unequip slot => some slot
  | _ => none

/-- Changes the inputs of a character; only a slot that there is not stands in the way. -/
def apply (change : Change) (c : Character) : Except Failure Character :=
  match change.slot?.filter (!slots.contains ·) with
  | some slot => .error (.unknownSlot slot)
  | none => .ok <| match change with
    | equip slot item => { c with equipment := c.equipment.set slot (some item) }
    | unequip slot => { c with equipment := c.equipment.set slot none }
    | addTraining item => { c with trainings := c.trainings ++ [item] }
    | removeTraining id => { c with trainings := c.trainings.filter (·.id != id) }
    | addInjury injury => { c with injuries := c.injuries ++ [injury] }
    | removeInjury id => { c with injuries := c.injuries.filter (·.id != id) }
    | addCondition condition => { c with conditions := c.conditions.insert condition }
    | removeCondition condition => { c with conditions := c.conditions.erase condition }

/-- The item that a change takes out of its slot. -/
def takesOut? (change : Change) (c : Character) : Option Item :=
  match change with
  | unequip slot => c.equipment.worn? slot
  | _ => none

end Change

end CharacterSheet
