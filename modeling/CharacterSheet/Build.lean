import CharacterSheet.Module
import CharacterSheet.State.Apply

/-!
# Building a state

The as-built state starts from the base values of a character, with the current values of its pools
and its manual modifiers carried over from the working state.  The modules follow in build order;
the selected options of one module are merged before they are applied, and a module that cannot be
processed is reported and contributes nothing.
-/

namespace CharacterSheet.Build

/-- The base values with what is carried over from the working state. -/
def start (base working : State) : State :=
  { base with
    resources := base.resources.mapWithKey fun name pool ↦
      match (working.resources.get? name).bind Pool.current with
      | some n => { pool with current := some n }
      | none => pool
    pain := { base.pain with modifier := working.pain.modifier }
    stress := { base.stress with modifier := working.stress.modifier } }

/-- Lays a module over the state. -/
def addModule (m : Module) (s : State) : Progress :=
  let r := m.reading
  let p : Progress := { state := s, events := r.events "module" m.id }
  match r.result with
  | .error _ => p
  | .ok d => p.andThen (State.apply (some m.id) d)

/-- The as-built state. -/
def run (base working : State) (modules : List Module) : Progress :=
  (Module.inBuildOrder modules).foldl (fun p m ↦ p.andThen (addModule m))
    (Progress.start (start base working))

end CharacterSheet.Build
