import CharacterSheet.Proofs.Build
import CharacterSheet.Proofs.Session.Action
import CharacterSheet.Proofs.Session.Recompute

/-!
# Rebuilding, and changes between passes

A rebuild reports its build, and when the build completes it goes on with a recompute over the built
state.  A recompute of a character that has never been built is a rebuild, and a change that comes
in while no pass is running goes on with a recompute.
-/

namespace CharacterSheet

namespace Session

/-- What a build of the character comes to. -/
def build (s : Session) : Progress :=
  Build.run s.character.base s.character.state s.character.modules

/-- The session in which a build has been reported. -/
def reported (s : Session) (r : Progress) : Session :=
  { s with
    character := { s.character with buildDiagnostics := r.diagnostics }
    log := s.log ++ r.events }

/-- The session in which a built state has become the baseline and the working state. -/
def rebuilt (s : Session) (r : Progress) : Session :=
  { s with
    shelf := s.shelf ++ [s.character.state]
    character := { s.character with
      buildDiagnostics := r.diagnostics
      baseline := some r.state
      state := r.state }
    log := s.log ++ r.events ++
      [.baselineCaptured,
        .rebuilt s.character.name s.character.modules.length r.diagnostics.length] }

theorem carryOut_rebuild (interrupt : Interrupt) {s : Session}
    (hidle : s.character.status ≠ .recomputing) :
    carryOut (rebuild interrupt) s = match s.build.failure with
      | some e => (.error e, s.reported s.build)
      | none => carryOut (recomputeBuilt interrupt) (s.rebuilt s.build) := by
  rw [rebuild, carryOut_bind_ok (carryOut_getCharacter s), if_neg hidle]
  simp only [carryOut_bind, carryOut_modifyCharacter, carryOut_modify]
  show carryOut _ (s.reported s.build) = _
  cases hfailure : s.build.failure with
  | some e =>
    have hbuild : (Build.run s.character.base s.character.state s.character.modules).failure =
        some e := hfailure
    simp only [hbuild]
    exact carryOut_bind_error (carryOut_throw ..) _
  | none =>
    have hbuild : (Build.run s.character.base s.character.state s.character.modules).failure =
        none := hfailure
    simp only [hbuild, carryOut_bind, carryOut_modify]
    rfl

/-- A change is made and the recompute goes its way; the reply was settled by the change. -/
theorem carryOut_makeChange_of_idle (interrupt : Interrupt) {change : Change} {s : Session}
    (hidle : s.character.status ≠ .recomputing) :
    carryOut (makeChange interrupt change) s = match change.apply s.character with
      | .error e => (.error e, s)
      | .ok c => carryOut (do recompute interrupt; return change.reply s.character)
        { s with character := c } := by
  rw [makeChange, carryOut_bind_ok (carryOut_getCharacter s)]
  cases change.apply s.character with
  | error e => rfl
  | ok c =>
    dsimp only
    rw [carryOut_bind_ok (carryOut_modifyCharacter ..), if_neg hidle]
    cases change <;> rfl

/-! ## Commands that run no pass -/

theorem carryOut_amend (interrupt : Interrupt) (layer : Layer) (edit : State → Except Failure State)
    (s : Session) : carryOut (perform interrupt (.amend layer edit)) s =
      match amend layer edit s.character with
      | .ok c => (.ok .done, { s with character := c })
      | .error e => (.error e, s) := by
  rw [perform, carryOut_bind_ok (carryOut_getCharacter s)]
  cases amend layer edit s.character <;> rfl

theorem carryOut_buildState (interrupt : Interrupt) (s : Session) :
    carryOut (perform interrupt .buildState) s =
      (match s.build.failure with
        | some e => .error e
        | none => .ok (.built s.build.state s.build.diagnostics), s.record s.build.events) := by
  rw [perform, carryOut_bind_ok (carryOut_getCharacter s)]
  dsimp only
  rw [carryOut_bind_ok (carryOut_modify ..), build]
  cases (Build.run s.character.base s.character.state s.character.modules).failure <;> rfl

end Session

end CharacterSheet
