import CharacterSheet.Proofs.Overlay.Completion
import CharacterSheet.Proofs.Session.Recompute

/-!
# Passes over broken sources

A source that cannot be processed costs a pass its own contribution and nothing else.  A source that
can be processed may still stop the pass for all the others: the immunities that it brings are put
in order after it has been read, together with those of the other sources.
-/

namespace CharacterSheet

namespace Session

open State

/-- The session with the trainings and the worn items of its character changed. -/
def mapItems (f g : Item → Item) (s : Session) : Session :=
  { s with
    character := { s.character with
      trainings := s.character.trainings.map f
      equipment := s.character.equipment.mapItems g } }

/-- The session in which sources that cannot be processed are blank. -/
def spared (s : Session) : Session := s.mapItems (Item.spare Item.training) (Item.spare Item.gear)

/-- A pass comes back, or fails, as it does over a character whose broken sources are blank, and it
leaves the same state; it reports each of them once.  It comes back if the immunities of the sources
that can be processed have an order and two pools have a quotient, and, where these immunities are
steady, only then: sets are listed in no order of their own, so what becomes of others is open.
Sources that bring names only never stand in the way. -/
theorem runPass_isolation {s : Session} {baseline : State}
    (hb : s.character.baseline = some baseline) :
    (execute [] .runPass s.spared).1 = (execute [] .runPass s).1 ∧
    (execute [] .runPass s.spared).2.character.state = (execute [] .runPass s).2.character.state ∧
    (∀ reply t, execute [] .runPass s = (.ok reply, t) →
      Diagnostic.ofKind .sourceFailure t.character.diagnostics = s.character.loadout.failures) ∧
    ((∃ vs, gatherAll baseline.immunities s.character.loadout.immunities = .ok vs) →
      (∀ name ∈ ["health", "resolve"], ∃ bonus,
        lowPoolBonus (s.character.loadout.pool? baseline s.character.state name) = .ok bonus) →
      (execute [] .runPass s).1.isOk = true) ∧
    ((∀ vs ∈ baseline.immunities :: s.character.loadout.immunities,
        ∀ v ∈ vs, v.steady = true) →
      (execute [] .runPass s).1.isOk = true →
      (∃ vs, gatherAll baseline.immunities s.character.loadout.immunities = .ok vs) ∧
        ∀ name ∈ ["health", "resolve"], ∃ bonus,
          lowPoolBonus (s.character.loadout.pool? baseline s.character.state name) = .ok bonus) ∧
    ((∃ names : List String, baseline.immunities = names.map .text) →
      (∀ item ∈ s.character.equipment.wornItems,
        ∃ names : List String, item.gearImmunities = names.map .text) →
      (∀ name n, effectiveCurrent baseline s.character.state name = some n →
        (-n).toNat.log2 < 1023) →
      (execute [] .runPass s).1.isOk = true) := by
  have hsb : s.spared.character.baseline = some baseline := hb
  have halike : (s.spared.passOver baseline).EndsAlike (s.passOver baseline) :=
    Overlay.endsAlike_run_spared s.settings s.character.loadout baseline s.character.state
  have hcompletes : (execute [] .runPass s).1.isOk = true ↔
      (∃ vs, gatherAll baseline.immunities s.character.loadout.immunities = .ok vs) ∧
        ∀ name ∈ ["health", "resolve"], ∃ bonus,
          lowPoolBonus (s.character.loadout.pool? baseline s.character.state name) = .ok bonus := by
    rw [isOk_execute_runPass hb]
    exact Overlay.failure_run_eq_none_iff ..
  refine ⟨?_, ?_, ?_, fun hgathered hpools ↦ hcompletes.2 ⟨hgathered, hpools⟩,
    fun _ ↦ hcompletes.1, ?_⟩
  · rw [execute_runPass hsb, execute_runPass hb, outcome, outcome, halike.failure]
  · rw [execute_runPass hsb, execute_runPass hb]
    exact halike.state
  · intro reply t h
    have hcompleted : (s.passOver baseline).failure = none := by
      rw [← isOk_execute_runPass hb, h]
      rfl
    rw [execute_runPass hb] at h
    obtain ⟨-, rfl⟩ := Prod.mk.inj h
    exact Overlay.faults_run hcompleted
  · intro hbaseline hworn hpools
    rw [isOk_execute_runPass hb]
    exact Overlay.failure_run_of_names s.settings hbaseline hworn hpools

/-- A character with a training that cannot be read, an amulet whose immunities are no set, a cloak
that fails after its code has been read, and boots that add to an attribute. -/
def battered : Session where
  settings := {}
  character :=
    { name := "Ada"
      base := .fresh {}
      state := .fresh {}
      baseline := some (.fresh {})
      trainings := [{ id := "lore", code := .list [.text "SS1=1"] }]
      equipment := .ofPairs
        [("boots", some { id := "boots", code := .text "SS2=1" }),
          ("back", some { id := "cloak", code := .text "SS1=1:ZZ", effects := .null }),
          ("head", some { id := "amulet", immunities := .list [.list []] })] }

theorem runPass_battered_isolation : ∃ reply t,
    execute [] .runPass battered = (.ok reply, t) ∧
      (execute [] .runPass battered.spared).2.character.state = t.character.state ∧
      Diagnostic.ofKind .sourceFailure t.character.diagnostics =
        [⟨.sourceFailure, "could not process source: data code must be a string, got list", none,
            some "lore"⟩,
          ⟨.sourceFailure, "could not process source: unhashable type: 'list'", none,
            some "amulet"⟩,
          ⟨.sourceFailure, "could not process source: 'NoneType' object is not iterable", none,
            some "cloak"⟩] := by
  obtain ⟨-, hstate, hfailures, -, -, -⟩ := runPass_isolation (s := battered) rfl
  have hok : (execute [] .runPass battered).1.isOk = true := by decide +kernel
  obtain ⟨reply, t, h⟩ := exists_execute_eq_ok hok
  refine ⟨reply, t, h, ?_, ?_⟩
  · rw [hstate, h]
  · rw [hfailures reply t h]
    decide +kernel

/-- Boots that add to an attribute, and an amulet with immunities of two kinds.  Both can be
processed. -/
def adorned : Session where
  settings := {}
  character :=
    { name := "Ada"
      base := .fresh {}
      state := .fresh {}
      baseline := some (.fresh {})
      equipment := .ofPairs
        [("boots", some { id := "boots", code := .text "SS2=1" }),
          ("head", some { id := "amulet", immunities := .list [.int 0, .text "x"] })] }

/-- It is too much to promise that a pass comes back whenever it does with blank items: immunities
without a common order stop it, and the boots are lost with the amulet. -/
theorem not_forall_isOk_of_blank :
    ¬ ∀ (s : Session) (baseline : State), s.character.baseline = some baseline →
      (execute [] .runPass (s.mapItems Item.blank Item.blank)).1.isOk = true →
      (execute [] .runPass s).1.isOk = true := by
  intro hblankSuffices
  have hblank : (execute [] .runPass (adorned.mapItems Item.blank Item.blank)).1.isOk = true := by
    decide +kernel
  have hfails : (execute [] .runPass adorned).1.isOk = false := by decide +kernel
  rw [hblankSuffices adorned _ rfl hblank] at hfails
  cases hfails

end Session

end CharacterSheet
