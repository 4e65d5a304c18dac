import CharacterSheet.Proofs.Content.Checked
import CharacterSheet.Proofs.Overlay.Order
import CharacterSheet.Proofs.Session.Pass

/-!
# Trainings in another order, items in other slots

A pass over a character is compared with a pass over the same character whose trainings stand in
another order and whose items are worn in other slots.  Gates look at the body and at both hands, so
what is worn on the body stays there, and what is held in the hands stays in the hands.
-/

namespace CharacterSheet

namespace Equipment

variable {e e' : Equipment}

/-- The same items are worn, on the body the same one, and in the hands the same two. -/
structure Rearranged (e e' : Equipment) : Prop where
  worn : e.wornItems.Perm e'.wornItems
  body : e.worn? "body" = e'.worn? "body"
  hands : [e.worn? "mainhand", e.worn? "offhand"].Perm [e'.worn? "mainhand", e'.worn? "offhand"]

namespace Rearranged

theorem armor? (h : e.Rearranged e') : e.armor? = e'.armor? := by
  rw [Equipment.armor?, Equipment.armor?, h.body]

theorem shields (h : e.Rearranged e') : e.shields.Perm e'.shields := by
  have hhands (e : Equipment) : ["mainhand", "offhand"].filterMap e.worn? =
      [e.worn? "mainhand", e.worn? "offhand"].filterMap id :=
    (List.filterMap_map (l := ["mainhand", "offhand"]) (f := e.worn?) (g := id)).symm
  rw [Equipment.shields, Equipment.shields, hhands, hhands]
  exact (h.hands.filterMap id).filter _

/-- Gates do not tell the hands apart. -/
theorem satisfiedGates (h : e.Rearranged e') : e.satisfiedGates = e'.satisfiedGates := by
  have hholds : (fun gate : Gate ↦ gate.holds e) = fun gate ↦ gate.holds e' := by
    funext gate
    cases gate with
    | anyShield => exact congrArg (!·) h.shields.isEmpty_eq
    | lightShield => exact h.shields.any_eq
    | heavyShield => exact h.shields.any_eq
    | _ => simp only [Gate.holds, h.armor?]
  rw [Equipment.satisfiedGates, Equipment.satisfiedGates, hholds]

end Rearranged

end Equipment

namespace Session

open State

/-- The session in which the character has other trainings and other equipment. -/
def outfit (s : Session) (trainings : List Item) (equipment : Equipment) : Session :=
  { s with character := { s.character with trainings, equipment } }

/-- The order of the trainings and the slots of the items make no difference to a pass, but for the
order in which abilities, effects and traits are listed, and for the payloads of trait codes to
which two sources give different ones. -/
theorem runPass_outfit {s t : Session} {baseline : State} {reply : Reply} {trainings : List Item}
    {equipment : Equipment} (hb : s.character.baseline = some baseline)
    (hworn : ∀ item ∈ s.character.equipment.wornItems, item.Checked)
    (htrainings : s.character.trainings.Perm trainings)
    (hequipment : s.character.equipment.Rearranged equipment)
    (h : execute [] .runPass s = (.ok reply, t)) :
    ∃ u, execute [] .runPass (s.outfit trainings equipment) = (.ok reply, u) ∧
      t.character.state.SameUpToOrder (Contested s.character.loadout.deltas) u.character.state ∧
      t.character.diagnostics.Perm u.character.diagnostics := by
  let s' := s.outfit trainings equipment
  have hreordered : s.character.loadout.Reordered s'.character.loadout :=
    ⟨htrainings, hequipment.worn, hequipment.satisfiedGates, rfl, rfl⟩
  have hnames (item : Item) (hitem : item ∈ s.character.equipment.wornItems) : item.BringsNames :=
    (hworn item hitem).bringsNames
  have hcompleted : (s.passOver baseline).failure = none := by
    rw [← isOk_execute_runPass hb, h]
    rfl
  have hcompleted' : (s'.passOver baseline).failure = none :=
    Overlay.failure_run_reordered hreordered hnames hcompleted
  rw [execute_runPass hb, outcome_of_completed hcompleted] at h
  obtain ⟨hreply, rfl⟩ := Prod.mk.inj h
  have hb' : s'.character.baseline = some baseline := hb
  refine ⟨_, by rw [execute_runPass hb', outcome_of_completed hcompleted', hreply], ?_, ?_⟩
  · refine Overlay.state_run_reordered hreordered hnames (fun item hitem g hg ↦ ?_) hcompleted
    exact (hworn item hitem).detectsNames hg
  · exact Overlay.diagnostics_run_perm htrainings hequipment.worn hcompleted hcompleted'

def buckler : Item :=
  .ofChecked "buckler" "Buckler" "" .shield (some .light) (some "CF[M1=2]:SS9=1") 0 .empty [] []

def lantern : Item :=
  .ofChecked "lantern" "Lantern" "" .misc none none 2
    (.ofPairs [("normal", 3), ("magical", 1)]) ["light"] ["blinded"]

/-- A character with two trainings that disagree about a trait, one that cannot be read, a shield
in the one hand and a lantern in the other. -/
def outfitted : Session where
  settings := {}
  character :=
    { name := "Ada"
      base := .fresh {}
      state := .fresh {}
      baseline := some (.fresh {})
      trainings :=
        [{ id := "oath", code := .text "TA=orc:SSA=1:AA:IB=1" },
          { id := "odd", code := .int 3 },
          { id := "drill", code := .text "TA=elf:TB=swift:CF[M1=1]:A1=2:ZZ" }]
      equipment := .ofPairs [("mainhand", some buckler), ("offhand", some lantern)] }

theorem checked_outfitted : ∀ item ∈ outfitted.character.equipment.wornItems, item.Checked := by
  have hwornItems : outfitted.character.equipment.wornItems = [buckler, lantern] := rfl
  intro item hitem
  rw [hwornItems] at hitem
  simp only [List.mem_cons, List.not_mem_nil, or_false] at hitem
  rcases hitem with rfl | rfl
  · exact ⟨_, _, _, _, _, _, _, _, _, _, rfl⟩
  · exact ⟨_, _, _, _, _, _, _, _, _, _, rfl⟩

theorem runPass_outfitted_reversed :
    (∀ item ∈ outfitted.character.equipment.wornItems, item.Checked) ∧
      outfitted.character.equipment.Rearranged
        (.ofPairs [("mainhand", some lantern), ("offhand", some buckler)]) ∧
      ∃ reply t u, execute [] .runPass outfitted = (.ok reply, t) ∧
        execute [] .runPass (outfitted.outfit outfitted.character.trainings.reverse
          (.ofPairs [("mainhand", some lantern), ("offhand", some buckler)])) = (.ok reply, u) ∧
        t.character.state.SameUpToOrder (Contested outfitted.character.loadout.deltas)
          u.character.state ∧
        t.character.diagnostics.Perm u.character.diagnostics := by
  have hrearranged : outfitted.character.equipment.Rearranged
      (.ofPairs [("mainhand", some lantern), ("offhand", some buckler)]) :=
    ⟨.swap lantern buckler [], rfl, .swap (some lantern) (some buckler) []⟩
  have hok : (execute [] .runPass outfitted).1.isOk = true := by decide +kernel
  obtain ⟨reply, t, h⟩ := exists_execute_eq_ok hok
  obtain ⟨u, hu, hstate, hdiagnostics⟩ := runPass_outfit rfl checked_outfitted
    (List.reverse_perm outfitted.character.trainings).symm hrearranged h
  exact ⟨checked_outfitted, hrearranged, reply, t, u, h, hu, hstate, hdiagnostics⟩

end Session

end CharacterSheet
