import CharacterSheet.Character

/-!
# Sessions

A session carries out commands on one character.  A recompute runs passes until no change came in
during the last one.  Between two overlays of a pass further commands can be carried out: these
interruptions are scheduled in advance, each after a given overlay and on its n-th turn.  While a
recompute is running, another one is refused, and so is a rebuild.

A command that fails leaves what it has done so far.
-/

namespace CharacterSheet

/-- Whose numbers a command edits by hand. -/
inductive Layer where
  | base | state | baseline
  deriving DecidableEq, Repr

/-- A pass opened by hand or by a recompute.  It keeps working on the state that was current when it
was opened: `opened` counts the states that rebuilds had put aside by then. -/
structure Pass where
  opened : Nat
  restored : Bool := false
  deriving DecidableEq, Repr

inductive Command where
  | rebuild
  | recompute
  /-- One pass, whatever the status. -/
  | runPass
  | change (c : Change)
  | addModule (m : Module)
  | select (module option : String) (on : Bool)
  /-- Edits numbers by hand; nothing is recomputed. -/
  | amend (layer : Layer) (edit : State → Except Failure State)
  /-- Builds a state without keeping it. -/
  | buildState
  | takeQueued
  | openPass
  | restorePass
  | runStage (stage : Stage)
  /-- Asks for the character as it is. -/
  | look
  /-- Asks whether the pass opened by hand has been restored. -/
  | lookPass
  /-- A command whose description is wrong fails when its turn comes. -/
  | refuse (why : Failure)

inductive Reply where
  | done
  | item (id : Option String)
  | flag (b : Bool)
  | built (state : State) (diagnostics : List Diagnostic)
  | character (c : Character)

/-- A command inside a pass.  Unless its failure is caught, it fails the pass. -/
structure Action where
  command : Command
  caught : Bool := false
  /-- A number under which the caller recognises the reply. -/
  label : Nat := 0

/-- Commands to be carried out after an overlay.  They are carried out once, on the given turn. -/
structure Interruption where
  after : Stage
  turn : Nat := 1
  actions : List Action
  /-- How often its turn has come. -/
  calls : Nat := 0

structure Session where
  settings : Settings
  character : Character
  /-- Working states that rebuilds have put aside, oldest first. -/
  shelf : List State := []
  pass : Option Pass := none
  schedule : List Interruption := []
  /-- What came of the commands inside passes, under their labels. -/
  replies : List (Nat × Except Failure Reply) := []
  log : List Event := []

/-- An activity in a session; what it did stays done when it fails. -/
abbrev Activity := ExceptT Failure (StateM Session)

namespace Session

def stateOf (s : Session) (p : Pass) : State := (s.shelf[p.opened]?).getD s.character.state

def putState (s : Session) (p : Pass) (state : State) : Session :=
  if p.opened < s.shelf.length then { s with shelf := s.shelf.set p.opened state }
  else { s with character := { s.character with state } }

def record (s : Session) (es : List Event) : Session := { s with log := s.log ++ es }

/-- Adds what was reported to the diagnostics of the last pass. -/
def collect (s : Session) (ds : List Diagnostic) : Session :=
  { s with character := { s.character with diagnostics := s.character.diagnostics ++ ds } }

def modifyCharacter (f : Character → Character) : Activity Unit :=
  modify fun s ↦ { s with character := f s.character }

def getCharacter : Activity Character := return (← get).character

/-- The outcome of an activity, a failure being an outcome too. -/
def observe {α : Type} (activity : Activity α) : Activity (Except Failure α) :=
  ExceptT.mk do return .ok (← activity.run)

/-! ## Passes -/

def newPass : Activity Pass := return { opened := (← get).shelf.length }

def restore (p : Pass) : Activity Pass := do
  if p.restored then throw .restoredTwice
  let c ← getCharacter
  match c.baseline with
  | none => throw (.noBaseline c.name)
  | some baseline =>
    modify fun s ↦ s.putState p (State.restore baseline (s.stateOf p))
    return { p with restored := true }

def runStage (p : Pass) (stage : Stage) : Activity Unit := do
  if !p.restored then throw (.stageBeforeRestore stage.name)
  let s ← get
  let r := stage.run s.settings s.character.loadout (s.stateOf p)
  set (((s.putState p r.state).record r.events).collect r.diagnostics)
  match r.failure with
  | some e => throw e
  | none => return

/-- What is carried out after an overlay. -/
abbrev Interrupt := Stage → Activity Unit

def runPass (interrupt : Interrupt) : Activity Unit := do
  let p ← newPass
  modifyCharacter fun c ↦ { c with diagnostics := [] }
  let p ← restore p
  Stage.all.forM fun stage ↦ do
    runStage p stage
    interrupt stage

def takeQueued : Activity Bool := do
  let c ← getCharacter
  modifyCharacter fun c ↦ { c with queued := false }
  return c.queued

/-- Runs passes until no change came in during the last one, and counts them.  Each pass after the
first is due to a change made by an interruption, or to one that was queued from the start. -/
def runPasses (interrupt : Interrupt) : Nat → Nat → Activity Nat
  | 0, count => return count
  | fuel + 1, count => do
    runPass interrupt
    if ← takeQueued then runPasses interrupt fuel (count + 1) else return count + 1

/-- Recomputes a character that has been built. -/
def recomputeBuilt (interrupt : Interrupt) : Activity Unit := do
  modifyCharacter fun c ↦ { c with status := .recomputing }
  let outcome ← observe (runPasses interrupt ((← get).schedule.length + 2) 0)
  modifyCharacter fun c ↦ { c with status := .idle }
  let count ← liftExcept outcome
  let c ← getCharacter
  modify fun s ↦ s.record [.recomputed c.name count c.diagnostics.length]
where
  liftExcept {α : Type} : Except Failure α → Activity α
    | .ok a => return a
    | .error e => throw e

/-- Builds the character anew: the built state becomes the baseline and the working state. -/
def rebuild (interrupt : Interrupt) : Activity Unit := do
  let c ← getCharacter
  if c.status = .recomputing then throw (.rebuildDuringPass c.name)
  let r := Build.run c.base c.state c.modules
  modifyCharacter fun c ↦ { c with buildDiagnostics := r.diagnostics }
  modify (·.record r.events)
  if let some e := r.failure then throw e
  modify fun s ↦ { s with
    shelf := s.shelf ++ [s.character.state]
    character := { s.character with baseline := some r.state, state := r.state } }
  modify (·.record [.baselineCaptured, .rebuilt c.name c.modules.length r.diagnostics.length])
  recomputeBuilt interrupt

/-- Recomputes the character; one that was never built is built first. -/
def recompute (interrupt : Interrupt) : Activity Unit := do
  let c ← getCharacter
  if c.status = .recomputing then throw (.alreadyRunning c.name)
  match c.baseline with
  | none => rebuild interrupt
  | some _ => recomputeBuilt interrupt

/-! ## Commands -/

def makeChange (interrupt : Interrupt) (change : Change) : Activity Reply := do
  let c ← getCharacter
  match change.apply c with
  | .error e => throw e
  | .ok c' =>
    modifyCharacter fun _ ↦ c'
    if c.status = .recomputing then
      modifyCharacter fun c ↦ { c with queued := true }
      modify (·.record [.recomputeQueued c.name change.name change.detail])
    else
      recompute interrupt
    match change with
    | .unequip _ => return .item ((change.takesOut? c).map Item.id)
    | _ => return .done

def selectOption (module option : String) (on : Bool) (ms : List Module) : List Module :=
  ms.map fun m ↦
    if m.id = module then
      { m with options := m.options.map fun o ↦
          if o.name = option then { o with selected := on } else o }
    else m

def amend (layer : Layer) (edit : State → Except Failure State) (c : Character) :
    Except Failure Character :=
  match layer with
  | .base => (edit c.base).map fun s ↦ { c with base := s }
  | .state => (edit c.state).map fun s ↦ { c with state := s }
  | .baseline => match c.baseline with
    | some b => (edit b).map fun s ↦ { c with baseline := some s }
    | none => .error (.noBaseline c.name)

def openedPass : Activity Pass := do
  match (← get).pass with
  | some p => return p
  | none => newPass

def perform (interrupt : Interrupt) : Command → Activity Reply
  | .rebuild => do rebuild interrupt; return .done
  | .recompute => do recompute interrupt; return .done
  | .runPass => do runPass interrupt; return .done
  | .change c => makeChange interrupt c
  | .addModule m => do
    modifyCharacter fun c ↦ { c with modules := c.modules ++ [m] }
    return .done
  | .select module option on => do
    modifyCharacter fun c ↦ { c with modules := selectOption module option on c.modules }
    return .done
  | .amend layer edit => do
    match amend layer edit (← getCharacter) with
    | .ok c => modifyCharacter fun _ ↦ c
    | .error e => throw e
    return .done
  | .buildState => do
    let c ← getCharacter
    let r := Build.run c.base c.state c.modules
    modify (·.record r.events)
    if let some e := r.failure then throw e
    return .built r.state r.diagnostics
  | .takeQueued => return .flag (← takeQueued)
  | .openPass => do
    let p ← newPass
    modify fun s ↦ { s with pass := some p }
    return .done
  | .restorePass => do
    let p ← restore (← openedPass)
    modify fun s ↦ { s with pass := some p }
    return .done
  | .runStage stage => do
    runStage (← openedPass) stage
    return .done
  | .look => return .character (← getCharacter)
  | .lookPass => return .flag (← openedPass).restored
  | .refuse why => throw why

def act (interrupt : Interrupt) (action : Action) : Activity Unit := do
  let outcome ← observe (perform interrupt action.command)
  modify fun s ↦ { s with replies := s.replies ++ [(action.label, outcome)] }
  match outcome with
  | .ok _ => return
  | .error e => if action.caught then return else throw e

/-- Counts a turn of an interruption; what is to be done on this turn. -/
def takeTurn (stage : Stage) (i : Nat) : Activity (List Action) := do
  match (← get).schedule[i]? with
  | none => return []
  | some h =>
    if h.after ≠ stage then return []
    modify fun s ↦ { s with schedule := s.schedule.set i { h with calls := h.calls + 1 } }
    return if h.calls + 1 = h.turn then h.actions else []

/-- Carries out what is scheduled after an overlay.  An interruption is carried out once, so passes
started inside interruptions are nested no deeper than there are interruptions. -/
def interruptions : Nat → Interrupt
  | 0, _ => return
  | depth + 1, stage => do
    (List.range (← get).schedule.length).forM fun i ↦ do
      (← takeTurn stage i).forM (act (interruptions depth))

def execute (schedule : List Interruption) (command : Command) (s : Session) :
    Except Failure Reply × Session :=
  let s := { s with schedule, replies := [] }
  ((perform (interruptions schedule.length) command).run).run s

end Session

end CharacterSheet
