import CharacterSheet.Event
import CharacterSheet.Failure
import CharacterSheet.State

/-!
# Progress on a state

A step on a state leaves the state that it reached, the events on the way and the failure that cut
it short, if any.  A failed step leaves its state half-done, and nothing follows it.
-/

namespace CharacterSheet

/-- The outcome of a step.  A failure comes from the step itself and never from recording its events:
that log entries can always be written is assumed, see `Event`. -/
structure Progress where
  state : State
  events : List Event := []
  failure : Option Failure := none
  deriving Repr

namespace Progress

/-- Nothing happened yet. -/
def start (s : State) : Progress := { state := s }

/-- Goes on from the state reached, unless the step failed. -/
def andThen (p : Progress) (f : State → Progress) : Progress :=
  match p.failure with
  | some _ => p
  | none => { f p.state with events := p.events ++ (f p.state).events }

/-- Goes on with a change that neither fails nor is recorded. -/
def thenPure (p : Progress) (f : State → State) : Progress := p.andThen fun s ↦ start (f s)

def diagnostics (p : Progress) : List Diagnostic := Event.diagnostics p.events

@[simp] theorem start_andThen (s : State) (f : State → Progress) : (start s).andThen f = f s := by
  simp [start, andThen]

theorem andThen_assoc (p : Progress) (f g : State → Progress) :
    (p.andThen f).andThen g = p.andThen fun s ↦ (f s).andThen g := by
  unfold andThen
  cases hp : p.failure with
  | some e => simp [hp]
  | none =>
    cases hf : (f p.state).failure with
    | some e => simp [hf]
    | none => simp [hf, List.append_assoc]

end Progress

end CharacterSheet
