import CharacterSheet.Proofs.Overlay.Completion
import CharacterSheet.Proofs.Overlay.Currents
import CharacterSheet.Proofs.Session.Interruption
import CharacterSheet.Proofs.Session.Rebuild
import CharacterSheet.Proofs.Session.Watching
import Mathlib.Data.List.Forall2

/-!
# Current values over whole runs

The current value of a pool travels through restoring, building and clamping, and clamping alone can
change it, to the maximum of a pass that completes.  So after any commands it is the least of what
it was and of the maxima that the completed passes computed.  The passes are watched to know these
maxima, and a watched command does what it does on its own.
-/

namespace CharacterSheet

/-- In every pool an unset current value became the maximum, and one above it went down to it. -/
def State.Clamped (s t : State) : Prop :=
  ∀ name p, s.resources.get? name = some p →
    t.resources.get? name = some { p with current := some (p.current.elim p.max (min · p.max)) }

theorem State.clamped_clampResources (owner : String) (s : State) :
    s.Clamped (Overlay.clampResources owner s).state := by
  intro name p hp
  have hclamp : Overlay.clampPool p =
      { p with current := some (p.current.elim p.max (min · p.max)) } := by
    unfold Overlay.clampPool
    cases p.current <;> rfl
  rw [← hclamp]
  exact (Table.get?_mapWithKey ..).trans (congrArg _ hp)

/-- The maxima of a pool in some states. -/
def State.maxima (name : String) (states : List State) : List Int :=
  states.filterMap fun s ↦ (s.resources.get? name).map Pool.max

theorem foldl_min_le (n : Int) (ns : List Int) : ns.foldl min n ≤ n := by
  induction ns generalizing n with
  | nil => exact Int.le_refl n
  | cons m ns ih => exact Int.le_trans (ih (min n m)) (Int.min_le_left n m)

/-- A pool that stays in the base and in the baseline, with its current value. -/
structure Character.Tracks (name : String) (n : Int) (c : Character) : Prop where
  base : c.base.resources.contains name = true
  baseline : ∀ b, c.baseline = some b → b.resources.contains name = true
  current : c.state.current? name = some (some n)

/-- A command that runs whole passes, and not single steps of one. -/
def Command.Whole : Command → Prop
  | .openPass | .restorePass | .runStage _ => False
  | _ => True

/-- A command that takes a pool out of no layer and does not edit its current value by hand. -/
def Command.Spares (name : String) : Command → Prop
  | .amend .state edit => ∀ s t, edit s = .ok t → t.current? name = s.current? name
  | .amend _ edit => ∀ s t, edit s = .ok t → s.resources.contains name = true →
      t.resources.contains name = true
  | _ => True

namespace Character

variable {name : String} {n : Int} {c c' : Character}

theorem Tracks.of_layers (h : c.Tracks name n)
    (hlayers : c'.base = c.base ∧ c'.baseline = c.baseline ∧ c'.state = c.state) :
    c'.Tracks name n := by
  obtain ⟨hbase, hbaseline, hstate⟩ := hlayers
  constructor
  · rw [hbase]
    exact h.base
  · rw [hbaseline]
    exact h.baseline
  · rw [hstate]
    exact h.current

theorem Tracks.amend (h : c.Tracks name n) {layer : Layer} {edit : State → Except Failure State}
    (hspares : (Command.amend layer edit).Spares name)
    (hamend : Session.amend layer edit c = .ok c') : c'.Tracks name n := by
  cases layer with
  | base =>
    obtain ⟨t, ht, rfl⟩ := exists_of_map_eq_ok hamend
    exact ⟨hspares _ t ht h.base, h.baseline, h.current⟩
  | state =>
    obtain ⟨t, ht, rfl⟩ := exists_of_map_eq_ok hamend
    exact ⟨h.base, h.baseline, (hspares _ t ht).trans h.current⟩
  | baseline =>
    cases hb : c.baseline with
    | none =>
      simp only [Session.amend, hb] at hamend
      cases hamend
    | some b =>
      simp only [Session.amend, hb] at hamend
      obtain ⟨t, ht, rfl⟩ := exists_of_map_eq_ok hamend
      refine ⟨h.base, fun b' hb' ↦ ?_, h.current⟩
      rw [← Option.some.inj hb']
      exact hspares b t ht (h.baseline b hb)

end Character

namespace Session

/-! ## Watched activities -/

variable {α β : Type} {pools : String → Int → Prop}

/-- What a watched session says of a pool: where it stands after the completed passes seen so far,
and in each of them. -/
structure Held (name : String) (n : Int) (t : Session) : Prop where
  tracks : t.character.Tracks name ((State.maxima name t.completed).foldl min n)
  within : ∀ u ∈ t.completed, ∃ p m, u.resources.get? name = some p ∧ p.current = some m ∧
    m ≤ p.max ∧ m ≤ n

/-- A session and the same session under watch. -/
structure Watched (pools : String → Int → Prop) (s t : Session) : Prop where
  same : t = { s with replies := t.replies }
  clamped : List.Forall₂ State.Clamped t.atClamping t.completed
  held : ∀ name n, pools name n → t.Held name n

/-- The second activity does what the first one does, and is watched. -/
def Watches (pools : String → Int → Prop) (x y : Activity α) : Prop :=
  ∀ s t, Watched pools s t →
    (carryOut y t).1 = (carryOut x s).1 ∧ Watched pools (carryOut x s).2 (carryOut y t).2

theorem Watches.bind {x y : Activity α} {f g : α → Activity β} (hx : Watches pools x y)
    (hf : ∀ a, Watches pools (f a) (g a)) : Watches pools (x >>= f) (y >>= g) := by
  intro s t h
  obtain ⟨houtcome, hwatched⟩ := hx s t h
  rw [carryOut_bind, carryOut_bind]
  rcases hs : carryOut x s with ⟨r, s'⟩
  rcases ht : carryOut y t with ⟨r', t'⟩
  rw [hs, ht] at houtcome hwatched
  obtain rfl : r' = r := houtcome
  cases r' with
  | error e => exact ⟨rfl, hwatched⟩
  | ok a => exact hf a s' t' hwatched

theorem watches_pure (a : α) : Watches pools (pure a) (pure a) := fun _ _ h ↦ ⟨rfl, h⟩

theorem watches_throw (e : Failure) : Watches pools (throw e : Activity α) (throw e) :=
  fun _ _ h ↦ ⟨rfl, h⟩

/-- What changes the session and keeps the pools does so under watch. -/
theorem Watched.change {s t : Session} (h : Watched pools s t) (u : Session)
    (htracks : ∀ name n m, pools name n → s.character.Tracks name m → u.character.Tracks name m) :
    Watched pools u { u with replies := t.replies } where
  same := rfl
  clamped := h.clamped
  held name n hpool := by
    have hheld := h.held name n hpool
    have hsame : t.character = s.character := by rw [h.same]
    exact ⟨htracks name n _ hpool (hsame ▸ hheld.tracks), hheld.within⟩

theorem Watched.keep {s t : Session} (h : Watched pools s t) (u : Session)
    (hlayers : u.character.base = s.character.base ∧
      u.character.baseline = s.character.baseline ∧ u.character.state = s.character.state) :
    Watched pools u { u with replies := t.replies } :=
  h.change u fun _ _ _ _ htracks ↦ htracks.of_layers hlayers

theorem watches_takeQueued : Watches pools takeQueued takeQueued := by
  intro s t h
  have hkept : Watched pools s.dequeued { s.dequeued with replies := t.replies } :=
    h.keep s.dequeued ⟨rfl, rfl, rfl⟩
  rw [h.same]
  exact ⟨rfl, hkept⟩

/-! ## Passes under watch -/

theorem carryOut_runPass_of_none (interrupt : Interrupt) {s : Session}
    (hb : s.character.baseline = none) :
    carryOut (runPass interrupt) s = (.error (.noBaseline s.character.name),
      { s with character := { s.character with diagnostics := [] } }) := by
  have hnew : carryOut newPass s = (.ok ⟨s.shelf.length, false⟩, s) := rfl
  have hrestore : carryOut (restore ⟨s.shelf.length, false⟩)
      { s with character := { s.character with diagnostics := [] } } =
      (.error (.noBaseline s.character.name),
        { s with character := { s.character with diagnostics := [] } }) := by
    simp only [restore, Bool.false_eq_true, if_false, carryOut_bind, carryOut_getCharacter, hb,
      carryOut_throw]
  rw [runPass, carryOut_bind_ok hnew, carryOut_bind_ok (carryOut_modifyCharacter ..),
    carryOut_bind_error hrestore]

theorem current?_passToClamping {s : Session} {baseline : State} {name : String} {n : Int}
    (hb : s.character.baseline = some baseline) (hs : s.character.Tracks name n) :
    (s.passToClamping baseline).state.current? name = some (some n) := by
  have hlast : .clampResources ∉
      Stage.laying ++ [.applyInjuries, .applyConditions, .finalizeMovement] := by decide
  have hkept := Overlay.sameCurrents_runStages s.settings s.character.loadout hlast
    (State.restore baseline s.character.state) name
  exact hkept.trans (State.current?_restore (hs.baseline baseline hb) hs.current)

/-- A pass that fails leaves a pool where it was. -/
theorem tracks_afterPass {s : Session} {baseline : State} {name : String} {n : Int} {e : Failure}
    (hb : s.character.baseline = some baseline) (hs : s.character.Tracks name n)
    (hfailed : (s.passOver baseline).failure = some e) :
    (s.afterPass (s.passOver baseline)).character.Tracks name n := by
  refine ⟨hs.base, hs.baseline, ?_⟩
  rw [failure_passOver_eq] at hfailed
  show (s.passOver baseline).state.current? name = _
  rw [passOver_eq, Progress.andThen_of_failure hfailed]
  exact current?_passToClamping hb hs

section Completed

variable {t : Session} {baseline : State}

theorem afterWatched_of_failed {e : Failure} (h : (t.passOver baseline).failure = some e) :
    t.afterWatched baseline = t.afterPass (t.passOver baseline) := by
  rw [afterWatched, h]

theorem afterWatched_of_completed (h : (t.passOver baseline).failure = none) :
    t.afterWatched baseline = { t.afterPass (t.passOver baseline) with
      replies := t.replies ++
        [(0, .ok (.character (t.afterPass (t.passToClamping baseline)).character)),
          (1, .ok (.character (t.afterPass (t.passOver baseline)).character))] } := by
  rw [afterWatched, h]

theorem atClamping_afterWatched (h : (t.passOver baseline).failure = none) :
    (t.afterWatched baseline).atClamping =
      t.atClamping ++ [(t.passToClamping baseline).state] := by
  rw [afterWatched_of_completed h, atClamping, statesUnder, List.filterMap_append]
  rfl

theorem completed_afterWatched (h : (t.passOver baseline).failure = none) :
    (t.afterWatched baseline).completed = t.completed ++ [(t.passOver baseline).state] := by
  rw [afterWatched_of_completed h, completed, statesUnder, List.filterMap_append]
  rfl

theorem clamped_passOver (h : (t.passOver baseline).failure = none) :
    (t.passToClamping baseline).state.Clamped (t.passOver baseline).state := by
  rw [failure_passOver_eq] at h
  rw [passOver_eq, Progress.state_andThen h]
  exact State.clamped_clampResources _ _

/-- A pass that completes brings a pool down to its maximum. -/
theorem Held.afterWatched {name : String} {n : Int} (hb : t.character.baseline = some baseline)
    (hcompleted : (t.passOver baseline).failure = none) (h : t.Held name n) :
    (t.afterWatched baseline).Held name n := by
  let m := (State.maxima name t.completed).foldl min n
  have hm : m ≤ n := foldl_min_le n _
  obtain ⟨p, hp, hcurrent⟩ :=
    Option.map_eq_some_iff.1 (current?_passToClamping hb h.tracks)
  have hlast := clamped_passOver hcompleted name p hp
  rw [hcurrent] at hlast
  have hmaxima : State.maxima name (t.afterWatched baseline).completed =
      State.maxima name t.completed ++ [p.max] := by
    rw [completed_afterWatched hcompleted, State.maxima, List.filterMap_append,
      List.filterMap_cons, hlast]
    rfl
  constructor
  · rw [hmaxima, List.foldl_append, afterWatched_of_completed hcompleted]
    refine ⟨h.tracks.base, h.tracks.baseline, ?_⟩
    show ((t.passOver baseline).state.resources.get? name).map Pool.current = _
    rw [hlast]
    rfl
  · intro u hu
    rw [completed_afterWatched hcompleted, List.mem_append, List.mem_singleton] at hu
    rcases hu with hu | rfl
    · exact h.within u hu
    · have hle : min m p.max ≤ n := Int.le_trans (Int.min_le_left m p.max) hm
      exact ⟨_, min m p.max, hlast, rfl, Int.min_le_right m p.max, hle⟩

end Completed

theorem watched_afterPass {s t : Session} {baseline : State} (h : Watched pools s t)
    (hb : s.character.baseline = some baseline) :
    Watched pools (s.afterPass (s.passOver baseline)) (t.afterWatched baseline) := by
  obtain ⟨replies, rfl⟩ : ∃ replies, t = { s with replies } := ⟨_, h.same⟩
  let t : Session := { s with replies }
  cases hfailure : (s.passOver baseline).failure with
  | some e =>
    have hfailed : (t.passOver baseline).failure = some e := hfailure
    rw [afterWatched_of_failed hfailed]
    exact h.change _ fun _ _ _ _ htracks ↦ tracks_afterPass hb htracks hfailure
  | none =>
    have hcompleted : (t.passOver baseline).failure = none := hfailure
    have hpairs : List.Forall₂ State.Clamped [(t.passToClamping baseline).state]
        [(t.passOver baseline).state] := .cons (clamped_passOver hcompleted) .nil
    constructor
    · rw [afterWatched_of_completed hcompleted]
      rfl
    · rw [atClamping_afterWatched hcompleted, completed_afterWatched hcompleted]
      exact List.rel_append h.clamped hpairs
    · intro name n hpool
      exact (h.held name n hpool).afterWatched hb hcompleted

theorem watches_runPass : Watches pools (runPass quiet) (runPass watch) := by
  intro s t h
  obtain ⟨replies, rfl⟩ : ∃ replies, t = { s with replies } := ⟨_, h.same⟩
  cases hb : s.character.baseline with
  | none =>
    have ht : carryOut (runPass watch) { s with replies } = _ :=
      carryOut_runPass_of_none watch (s := { s with replies }) hb
    rw [carryOut_runPass_of_none quiet hb, ht]
    exact ⟨rfl, h.keep { s with character := _ } ⟨rfl, rfl, rfl⟩⟩
  | some baseline =>
    have ht := carryOut_runPass_watch (s := { s with replies }) hb
    rw [carryOut_runPass_quiet hb, ht]
    exact ⟨rfl, watched_afterPass h hb⟩

theorem watches_runPasses (fuel count : Nat) :
    Watches pools (runPasses quiet fuel count) (runPasses watch fuel count) := by
  induction fuel generalizing count with
  | zero => exact watches_pure count
  | succ fuel ih =>
    refine watches_runPass.bind fun _ ↦ watches_takeQueued.bind fun queued ↦ ?_
    cases queued with
    | true => exact ih (count + 1)
    | false => exact watches_pure (count + 1)

/-! ## Commands under watch -/

theorem watches_recomputeBuilt :
    Watches pools (recomputeBuilt quiet) (recomputeBuilt watch) := by
  intro s t h
  have hbegun : Watched pools s.begun t.begun := by
    rw [h.same]
    exact h.keep s.begun ⟨rfl, rfl, rfl⟩
  have hschedule : t.schedule = s.schedule := by rw [h.same]
  obtain ⟨houtcome, hwatched⟩ := watches_runPasses (s.schedule.length + 2) 0 s.begun t.begun hbegun
  rw [carryOut_recomputeBuilt, carryOut_recomputeBuilt, hschedule]
  rcases hs : carryOut (runPasses quiet (s.schedule.length + 2) 0) s.begun with ⟨r, u⟩
  rcases ht : carryOut (runPasses watch (s.schedule.length + 2) 0) t.begun with ⟨r', v⟩
  rw [hs, ht] at houtcome hwatched
  obtain rfl : r' = r := houtcome
  cases r' with
  | error e =>
    have habandoned := hwatched.keep u.abandoned ⟨rfl, rfl, rfl⟩
    rw [show v = { u with replies := v.replies } from hwatched.same]
    exact ⟨rfl, habandoned⟩
  | ok passes =>
    have hended := hwatched.keep (u.ended passes) ⟨rfl, rfl, rfl⟩
    rw [show v = { u with replies := v.replies } from hwatched.same]
    exact ⟨rfl, hended⟩

/-- A build that completes carries a pool of the base over to the baseline and to the working
state. -/
theorem tracks_rebuilt {s : Session} {name : String} {n : Int}
    (h : s.character.Tracks name n) : (s.rebuilt s.build).character.Tracks name n := by
  have hcurrent : s.build.state.current? name = some (some n) :=
    (Build.sameCurrents_run _ _ _ name).trans (Build.current?_start h.base h.current)
  refine ⟨h.base, fun b hb ↦ ?_, hcurrent⟩
  obtain ⟨p, hp, -⟩ := Option.map_eq_some_iff.1 hcurrent
  rw [← Option.some.inj hb, Table.contains, hp]
  rfl

theorem watches_rebuild : Watches pools (rebuild quiet) (rebuild watch) := by
  intro s t h
  obtain ⟨replies, rfl⟩ : ∃ replies, t = { s with replies } := ⟨_, h.same⟩
  by_cases hrunning : s.character.status = .recomputing
  · have ht := @carryOut_rebuild_of_running watch { s with replies } hrunning
    rw [carryOut_rebuild_of_running hrunning, ht]
    exact ⟨rfl, h⟩
  · have ht := carryOut_rebuild watch (s := { s with replies }) hrunning
    have hbuild : ({ s with replies } : Session).build = s.build := rfl
    rw [carryOut_rebuild quiet hrunning, ht, hbuild]
    cases s.build.failure with
    | some e => exact ⟨rfl, h.keep (s.reported s.build) ⟨rfl, rfl, rfl⟩⟩
    | none =>
      have hrebuilt := h.change (s.rebuilt s.build) fun _ _ _ _ htracks ↦
        tracks_rebuilt htracks
      exact watches_recomputeBuilt _ _ hrebuilt

theorem watches_recompute : Watches pools (recompute quiet) (recompute watch) := by
  intro s t h
  have hcharacter : t.character = s.character := by rw [h.same]
  by_cases hrunning : s.character.status = .recomputing
  · have hrunning' : t.character.status = .recomputing := hcharacter ▸ hrunning
    rw [carryOut_recompute_of_running hrunning, carryOut_recompute_of_running hrunning', hcharacter]
    exact ⟨rfl, h⟩
  · have hidle : t.character.status ≠ .recomputing := hcharacter ▸ hrunning
    rw [carryOut_recompute quiet hrunning, carryOut_recompute watch hidle, hcharacter]
    cases s.character.baseline with
    | none => exact watches_rebuild s t h
    | some b => exact watches_recomputeBuilt s t h

theorem watches_makeChange (change : Change) :
    Watches pools (makeChange quiet change) (makeChange watch change) := by
  intro s t h
  obtain ⟨replies, rfl⟩ : ∃ replies, t = { s with replies } := ⟨_, h.same⟩
  by_cases hrunning : s.character.status = .recomputing
  · have ht := @carryOut_makeChange watch change { s with replies } hrunning
    rw [carryOut_makeChange hrunning, ht]
    dsimp only
    cases happly : change.apply s.character with
    | error e => exact ⟨rfl, h⟩
    | ok c =>
      obtain ⟨hbase, hbaseline, hstate⟩ := Change.layers_of_apply_eq_ok happly
      exact ⟨rfl, h.keep { s with character := { c with queued := true }, log := _ }
        ⟨hbase, hbaseline, hstate⟩⟩
  · have ht := @carryOut_makeChange_of_idle watch change { s with replies } hrunning
    rw [carryOut_makeChange_of_idle quiet hrunning, ht]
    dsimp only
    cases happly : change.apply s.character with
    | error e => exact ⟨rfl, h⟩
    | ok c =>
      have hchanged := h.keep { s with character := c }
        (Change.layers_of_apply_eq_ok happly)
      exact watches_recompute.bind (fun _ ↦ watches_pure _) _ _ hchanged

theorem watches_amend {layer : Layer} {edit : State → Except Failure State}
    (hspares : ∀ name n, pools name n → (Command.amend layer edit).Spares name) :
    Watches pools (perform quiet (.amend layer edit)) (perform watch (.amend layer edit)) := by
  intro s t h
  have hcharacter : t.character = s.character := by rw [h.same]
  show (carryOut (perform quiet (.amend layer edit)) t).1 = _ ∧
    Watched pools _ (carryOut (perform quiet (.amend layer edit)) t).2
  rw [carryOut_amend, carryOut_amend, hcharacter]
  cases hamend : amend layer edit s.character with
  | error e => exact ⟨rfl, h⟩
  | ok c =>
    have hamended := h.change { s with character := c } fun name n _ hpool htracks ↦
      htracks.amend (hspares name n hpool) hamend
    rw [h.same]
    exact ⟨rfl, hamended⟩

theorem watches_buildState :
    Watches pools (perform quiet .buildState) (perform watch .buildState) := by
  intro s t h
  have hbuild : t.build = s.build := by rw [h.same]; rfl
  have hrecorded := h.keep (s.record s.build.events) ⟨rfl, rfl, rfl⟩
  show (carryOut (perform quiet .buildState) t).1 = _ ∧
    Watched pools _ (carryOut (perform quiet .buildState) t).2
  rw [carryOut_buildState, carryOut_buildState, hbuild, h.same]
  exact ⟨rfl, hrecorded⟩

/-- A watched command does what it does on its own. -/
theorem watches_perform {command : Command} (hwhole : command.Whole)
    (hspares : ∀ name n, pools name n → command.Spares name) :
    Watches pools (perform quiet command) (perform watch command) := by
  cases command with
  | rebuild => exact watches_rebuild.bind fun _ ↦ watches_pure _
  | recompute => exact watches_recompute.bind fun _ ↦ watches_pure _
  | runPass => exact watches_runPass.bind fun _ ↦ watches_pure _
  | change change => exact watches_makeChange change
  | amend layer edit => exact watches_amend hspares
  | buildState => exact watches_buildState
  | takeQueued => exact watches_takeQueued.bind fun _ ↦ watches_pure _
  | refuse why => exact watches_throw why
  | addModule m =>
    intro s t h
    let c : Character := { s.character with modules := s.character.modules ++ [m] }
    have hadded := h.keep { s with character := c } ⟨rfl, rfl, rfl⟩
    rw [h.same]
    exact ⟨rfl, hadded⟩
  | select module option on =>
    intro s t h
    let c : Character :=
      { s.character with modules := selectOption module option on s.character.modules }
    have hselected := h.keep { s with character := c } ⟨rfl, rfl, rfl⟩
    rw [h.same]
    exact ⟨rfl, hselected⟩
  | look =>
    intro s t h
    have hcharacter : t.character = s.character := by rw [h.same]
    refine ⟨?_, h⟩
    show Except.ok (Reply.character t.character) = .ok (.character s.character)
    rw [hcharacter]
  | lookPass =>
    intro s t h
    have hresult (u : Session) : carryOut (perform quiet .lookPass) u =
        (.ok (.flag (u.pass.any Pass.restored)), u) := by
      rw [perform, openedPass, carryOut_bind, carryOut_bind_ok (carryOut_get u)]
      cases u.pass <;> rfl
    have hpass : t.pass = s.pass := by rw [h.same]
    show (carryOut (perform quiet .lookPass) t).1 = _ ∧
      Watched pools _ (carryOut (perform quiet .lookPass) t).2
    rw [hresult s, hresult t, hpass]
    exact ⟨rfl, h⟩
  | openPass => exact absurd hwhole id
  | restorePass => exact absurd hwhole id
  | runStage stage => exact absurd hwhole id

/-! ## Runs of commands -/

/-- The session after a command, which is carried out under watch. -/
def underWatch (command : Command) (s : Session) : Session :=
  (carryOut (perform watch command) (s.scheduled [])).2

/-- The session after some commands, whether they come back or fail. -/
def afterAll (commands : List Command) (s : Session) : Session :=
  commands.foldl (fun s command ↦ (execute [] command s).2) s

/-- What is seen while each of some commands is carried out. -/
def seenIn (states : Session → List State) : List Command → Session → List State
  | [], _ => []
  | command :: commands, s =>
    states (underWatch command s) ++ seenIn states commands (execute [] command s).2

theorem watched_execute {command : Command} (hwhole : command.Whole) (s : Session) :
    Watched (fun name n ↦ s.character.Tracks name n ∧ command.Spares name)
      (execute [] command s).2 (underWatch command s) := by
  have hstart : Watched (fun name n ↦ s.character.Tracks name n ∧ command.Spares name)
      (s.scheduled []) (s.scheduled []) := by
    refine ⟨rfl, .nil, fun name n hpool ↦ ⟨hpool.1, ?_⟩⟩
    intro u hu
    cases hu
  exact (watches_perform hwhole (fun _ _ hpool ↦ hpool.2) _ _ hstart).2

/-- Over any commands, whether they come back or fail, a pool that stays in the base and in the
baseline ends at the least of its current value and of the maxima that the completed passes
computed; after each of these passes it is at most their maximum, and never above what it was.
Every pass that completes gives a pool whose current value is unset its maximum. -/
theorem current_afterAll_eq_foldl_min {commands : List Command}
    (hwhole : ∀ command ∈ commands, command.Whole) (s : Session) :
    List.Forall₂ State.Clamped (seenIn atClamping commands s) (seenIn completed commands s) ∧
      ∀ name n, s.character.Tracks name n → (∀ command ∈ commands, command.Spares name) →
        (afterAll commands s).character.state.current? name =
            some (some ((State.maxima name (seenIn completed commands s)).foldl min n)) ∧
          (State.maxima name (seenIn completed commands s)).foldl min n ≤ n ∧
          ∀ t ∈ seenIn completed commands s, ∃ p m, t.resources.get? name = some p ∧
            p.current = some m ∧ m ≤ p.max ∧ m ≤ n := by
  suffices h : List.Forall₂ State.Clamped (seenIn atClamping commands s)
      (seenIn completed commands s) ∧
        ∀ name n, s.character.Tracks name n → (∀ command ∈ commands, command.Spares name) →
          (afterAll commands s).character.Tracks name
              ((State.maxima name (seenIn completed commands s)).foldl min n) ∧
            ∀ t ∈ seenIn completed commands s, ∃ p m, t.resources.get? name = some p ∧
              p.current = some m ∧ m ≤ p.max ∧ m ≤ n by
    refine ⟨h.1, fun name n hs hspares ↦ ?_⟩
    obtain ⟨htracks, hwithin⟩ := h.2 name n hs hspares
    exact ⟨htracks.current, foldl_min_le n _, hwithin⟩
  induction commands generalizing s with
  | nil => exact ⟨.nil, fun name n hs _ ↦ ⟨hs, fun t ht ↦ absurd ht List.not_mem_nil⟩⟩
  | cons command commands ih =>
    have hfirst := watched_execute (hwhole command List.mem_cons_self) s
    obtain ⟨hpairs, hpools⟩ := ih (fun c hc ↦ hwhole c (List.mem_cons_of_mem command hc))
      (execute [] command s).2
    refine ⟨List.rel_append hfirst.clamped hpairs, fun name n hs hspares ↦ ?_⟩
    obtain ⟨htracks, hwithin⟩ := hfirst.held name n ⟨hs, hspares command List.mem_cons_self⟩
    have hsame : (underWatch command s).character = (execute [] command s).2.character := by
      rw [hfirst.same]
    rw [hsame] at htracks
    obtain ⟨hlast, hlater⟩ := hpools name _ htracks
      fun c hc ↦ hspares c (List.mem_cons_of_mem command hc)
    constructor
    · rw [seenIn, State.maxima, List.filterMap_append, List.foldl_append]
      exact hlast
    · intro t ht
      rcases List.mem_append.1 ht with ht | ht
      · exact hwithin t ht
      · obtain ⟨p, m, hp, hm, hmax, hle⟩ := hlater t ht
        exact ⟨p, m, hp, hm, hmax, Int.le_trans hle (foldl_min_le n _)⟩

/-- A character that has lost some health and was never built. -/
def wounded : Session where
  settings := {}
  character :=
    { name := "Ada"
      base := { State.fresh {} with resources := .ofPairs [("health", { max := 8 })] }
      state :=
        { State.fresh {} with
          resources := .ofPairs [("health", { max := 8, current := some 7 })] } }

/-- Gear that costs health is put on and taken off again, and an item makes a pass fail. -/
def straining : List Command :=
  [.rebuild, .change (.equip "body" { id := "plate", code := .text "A1=-3" }),
    .change (.equip "head" { id := "amulet", immunities := .list [.int 0, .text "x"] }),
    .change (.unequip "head"), .change (.unequip "body"), .rebuild]

theorem current_afterAll_straining :
    State.maxima "health" (seenIn completed straining wounded) = [8, 5, 5, 8, 8] ∧
      (afterAll straining wounded).character.state.current? "health" = some (some 5) := by
  have hwhole : ∀ command ∈ straining, command.Whole := by simp [straining, Command.Whole]
  have hspares : ∀ command ∈ straining, command.Spares "health" := by
    simp [straining, Command.Spares]
  have htracks : wounded.character.Tracks "health" 7 := by
    refine ⟨by decide +kernel, fun b hb ↦ ?_, rfl⟩
    cases hb
  have hmaxima : State.maxima "health" (seenIn completed straining wounded) = [8, 5, 5, 8, 8] := by
    decide +kernel
  have hlast := ((current_afterAll_eq_foldl_min hwhole wounded).2 "health" 7 htracks hspares).1
  rw [hmaxima] at hlast
  exact ⟨hmaxima, hlast⟩

end Session

end CharacterSheet
