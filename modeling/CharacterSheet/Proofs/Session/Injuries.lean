import CharacterSheet.Proofs.Overlay.Injuries
import CharacterSheet.Proofs.Session.Order
import CharacterSheet.Proofs.Session.Rest

/-!
# Injuries of characters at rest

On a character at rest a change of injuries always comes back, and it leaves the tracks that follow
from the injuries that there are now.  So injuries only ever worsen the tracks, and removing those
that were added undoes them.
-/

namespace CharacterSheet

/-- A character with other injuries and the tracks that follow from them. -/
def Character.withInjuries (injuries : List Injury) (c : Character) : Character :=
  { c with injuries, state := c.state.withInjuries injuries }

theorem Character.withInjuries_withInjuries (injuries injuries' : List Injury) (c : Character) :
    (c.withInjuries injuries).withInjuries injuries' = c.withInjuries injuries' :=
  congrArg (fun state ↦ { c with injuries := injuries', state := state })
    (State.withInjuries_withInjuries injuries injuries' c.state)

namespace Session

variable {s t : Session} {baseline : State}

namespace AtRest

theorem withInjuries (h : t.AtRest baseline) :
    t.character.withInjuries t.character.injuries = t.character :=
  congrArg (fun state ↦ { t.character with state := state })
    (Overlay.withInjuries_of_settled h.settled.completed h.settled.state)

/-- A change of injuries comes back and leaves a character at rest, with other tracks. -/
theorem exists_change_injuries (h : t.AtRest baseline) (change : Change) {injuries : List Injury}
    (happly : change.apply t.character = .ok { t.character with injuries }) :
    ∃ u, execute [] (.change change) t = (.ok (change.reply t.character), u) ∧
      u.settings = t.settings ∧ u.character = t.character.withInjuries injuries ∧
      u.AtRest baseline := by
  have hloadout : ({ t.character with injuries } : Character).loadout =
      { t.character.loadout with injuries } := rfl
  have hcompleted : (Overlay.run t.settings { t.character.loadout with injuries } baseline
      t.character.state).failure = none := Overlay.failure_run_injuries h.settled.completed injuries
  have hstate : (Overlay.run t.settings { t.character.loadout with injuries } baseline
      t.character.state).state = t.character.state.withInjuries injuries :=
    Overlay.state_run_injuries h.settled.completed h.settled.state injuries
  obtain ⟨u, hu, hsettings, hcharacter⟩ := h.exists_change_completed happly hloadout hcompleted
    (Overlay.diagnostics_run_injuries h.settled.completed injuries)
  have hleft : u.character = t.character.withInjuries injuries :=
    hcharacter.trans (congrArg (fun state ↦
      { t.character with injuries := injuries, state := state }) hstate)
  have htame : ({ command := .change change } : Call).Tame := ⟨trivial, by simp⟩
  obtain ⟨built, hrest⟩ := exists_atRest htame (by simp) h.idle hu
  have hbuilt : some built = some baseline := by
    rw [← hrest.baseline_eq, ← h.baseline_eq, hleft]
    rfl
  obtain rfl := Option.some.inj hbuilt
  exact ⟨u, hu, hsettings, hleft, hrest⟩

theorem exists_addInjuries (h : t.AtRest baseline) (injuries : List Injury) :
    ∃ v, Called (injuries.map fun injury ↦ ({ command := .change (.addInjury injury) }, .ok .done))
        t v ∧
      v.settings = t.settings ∧
      v.character = t.character.withInjuries (t.character.injuries ++ injuries) ∧
      v.AtRest baseline := by
  -- Each addition leaves a character at rest, to which the others are made.
  induction injuries generalizing t with
  | nil =>
    refine ⟨t, .nil t, rfl, ?_, h⟩
    rw [List.append_nil, h.withInjuries]
  | cons injury injuries ih =>
    obtain ⟨u, hu, hsettings, hcharacter, hrest⟩ :=
      h.exists_change_injuries (.addInjury injury) rfl
    obtain ⟨v, hv, hsettings', hcharacter', hrest'⟩ := ih hrest
    refine ⟨v, .cons hu hv, hsettings'.trans hsettings, ?_, hrest'⟩
    have hinjuries : u.character.injuries = t.character.injuries ++ [injury] := by
      rw [hcharacter]
      rfl
    rw [hcharacter', hinjuries, hcharacter, Character.withInjuries_withInjuries,
      List.append_assoc]
    rfl

theorem exists_removeInjury (h : t.AtRest baseline) {id : String} {injuries : List Injury}
    (hadded : ∀ injury ∈ injuries, injury.id = id)
    (hnew : ∀ injury ∈ t.character.injuries, injury.id ≠ id) {v : Session}
    (hcharacter : v.character = t.character.withInjuries (t.character.injuries ++ injuries))
    (hrest : v.AtRest baseline) :
    ∃ u, execute [] (.change (.removeInjury id)) v = (.ok .done, u) ∧
      u.settings = v.settings ∧ u.character = t.character := by
  have hremoved : v.character.injuries.filter (·.id != id) = t.character.injuries := by
    have hinjuries : v.character.injuries = t.character.injuries ++ injuries := by
      rw [hcharacter]
      rfl
    have hold : t.character.injuries.filter (·.id != id) = t.character.injuries :=
      List.filter_eq_self.2 fun injury hi ↦ bne_iff_ne.2 (hnew injury hi)
    have hgone : injuries.filter (·.id != id) = [] :=
      List.filter_eq_nil_iff.2 fun injury hi ↦ by simp [hadded injury hi]
    rw [hinjuries, List.filter_append, hold, hgone, List.append_nil]
  have happly : (Change.removeInjury id).apply v.character =
      .ok { v.character with injuries := t.character.injuries } := by
    rw [← hremoved]
    rfl
  obtain ⟨u, hu, hsettings, hleft, -⟩ := hrest.exists_change_injuries _ happly
  refine ⟨u, hu, hsettings, ?_⟩
  rw [hleft, hcharacter, Character.withInjuries_withInjuries, h.withInjuries]

/-- A pool of a character at rest is lowered by hand; a recompute that comes back then improves no
track. -/
theorem exists_lowered (h : t.AtRest baseline) {name : String} {m n : Int}
    (hcurrent : t.character.state.current? name = some (some m)) (hle : n ≤ m) :
    ∃ v, execute [] (.amend .state fun s ↦ .ok (s.setCurrent name n)) t = (.ok .done, v) ∧
      ∀ reply u, execute [] .recompute v = (.ok reply, u) →
        t.character.state.Worsens u.character.state := by
  let v : Session := { t.scheduled [] with
    character := { t.character with state := t.character.state.setCurrent name n } }
  have hv : execute [] (.amend .state fun s ↦ .ok (s.setCurrent name n)) t = (.ok .done, v) := by
    rw [execute_eq, List.length_nil, interruptions_zero, carryOut_amend]
    rfl
  refine ⟨v, hv, fun reply u hu ↦ ?_⟩
  obtain ⟨u', hu', -, hcharacter⟩ :=
    exists_execute_recompute_quiet (t := v) h.idle h.unqueued h.baseline_eq
  rw [hu] at hu'
  cases hfailure : (v.passOver baseline).failure with
  | some e =>
    rw [outcome_of_failure hfailure] at hu'
    cases hu'
  | none =>
    obtain ⟨-, rfl⟩ := Prod.mk.inj hu'
    rw [hcharacter]
    exact Overlay.worsens_run_setCurrent h.settled.completed h.settled.state hcurrent hle hfailure

end AtRest

/-- On a character just recomputed, a further injury comes back, improves no track and changes
nothing else of the state; removing an injury that was not there before undoes any number of
additions under its name; and with a pool lowered by hand a recompute improves no track. -/
theorem injuries_monotone {call : Call} {reply : Reply} (hcall : call.Tame)
    (hreentrant : ∀ i ∈ call.schedule, ∀ a ∈ i.actions, a.Reentrant)
    (hidle : s.character.status = .idle)
    (h : execute call.schedule call.command s = (.ok reply, t)) :
    (∀ injury : Injury, ∃ u, execute [] (.change (.addInjury injury)) t = (.ok .done, u) ∧
      t.character.state.Worsens u.character.state ∧ u.character = { t.character with
        injuries := t.character.injuries ++ [injury]
        state := { t.character.state with
          pain := u.character.state.pain
          stress := u.character.state.stress } }) ∧
    (∀ (id : String) (injuries : List Injury), (∀ injury ∈ injuries, injury.id = id) →
      (∀ injury ∈ t.character.injuries, injury.id ≠ id) → ∃ u v,
        Called (injuries.map fun injury ↦ ({ command := .change (.addInjury injury) }, .ok .done))
          t u ∧
        execute [] (.change (.removeInjury id)) u = (.ok .done, v) ∧
        v.settings = t.settings ∧ v.character = t.character) ∧
    ∀ (name : String) (m n : Int), t.character.state.current? name = some (some m) → n ≤ m →
      ∃ u, execute [] (.amend .state fun s ↦ .ok (s.setCurrent name n)) t = (.ok .done, u) ∧
        ∀ reply v, execute [] .recompute u = (.ok reply, v) →
          t.character.state.Worsens v.character.state := by
  obtain ⟨baseline, hrest⟩ := exists_atRest hcall hreentrant hidle h
  refine ⟨?_, ?_, ?_⟩
  · intro injury
    obtain ⟨u, hu, -, hcharacter, -⟩ :=
      hrest.exists_change_injuries (.addInjury injury) rfl
    refine ⟨u, hu, ?_, ?_⟩
    · rw [hcharacter]
      exact Overlay.worsens_withInjuries hrest.settled.completed hrest.settled.state
        (Overlay.painOf_append t.character.injuries injury ▸ Nat.le_add_right _ _)
        (Overlay.stressOf_append t.character.injuries injury ▸ Nat.le_add_right _ _)
    · rw [hcharacter]
      rfl
  · intro id injuries hadded hnew
    obtain ⟨u, hu, hsettings, hcharacter, hrest'⟩ := hrest.exists_addInjuries injuries
    obtain ⟨v, hv, hsettings', hleft⟩ := hrest.exists_removeInjury hadded hnew hcharacter hrest'
    exact ⟨u, v, hu, hv, hsettings'.trans hsettings, hleft⟩
  · intro name m n hcurrent hle
    exact hrest.exists_lowered hcurrent hle

/-- The outfitted character with little health left, an old scar, and a stiff upper lip. -/
def maimed : Session :=
  { outfitted with
    character := { outfitted.character with
      injuries := [{ id := "scar", name := "Scar", pain := 9 }]
      baseline := some { State.fresh {} with
        resources := .ofPairs [("health", { max := 8 }), ("resolve", { max := 6 })] }
      state := { State.fresh {} with
        resources := .ofPairs [("health", { max := 8, current := some 5 })]
        pain := { modifier := -4 } } } }

def burn : Injury := { id := "burn", name := "Burn", pain := 3, stress := 2 }

/-- The character is burnt while it is recomputed. -/
def fire : List Interruption :=
  [{ after := .applyInjuries, actions := [{ command := .change (.addInjury burn) }] }]

def cuts : List Injury :=
  [{ id := "cut", name := "Cut", pain := 2 }, { id := "cut", name := "Gash", stress := 5 }]

theorem recompute_maimed_monotone : ∃ reply t,
    execute fire .recompute maimed = (.ok reply, t) ∧
      (∃ u, execute [] (.change (.addInjury burn)) t = (.ok .done, u) ∧
        t.character.state.Worsens u.character.state) ∧
      (∃ u v, Called (cuts.map fun injury ↦
          ({ command := .change (.addInjury injury) }, .ok .done)) t u ∧
        execute [] (.change (.removeInjury "cut")) u = (.ok .done, v) ∧
        v.character = t.character) ∧
      t.character.state.current? "health" = some (some 5) ∧
      ∃ u reply v,
        execute [] (.amend .state fun s ↦ .ok (s.setCurrent "health" 2)) t = (.ok .done, u) ∧
        execute [] .recompute u = (.ok reply, v) ∧
        t.character.state.Worsens v.character.state := by
  have htame : ({ schedule := fire, command := .recompute } : Call).Tame := by
    simp [Call.Tame, fire, Action.Tame]
  have hreentrant : ∀ i ∈ fire, ∀ a ∈ i.actions, a.Reentrant := by simp [fire, Action.Reentrant]
  have hok : (execute fire .recompute maimed).1.isOk = true := by decide +kernel
  have hnew : ∀ injury ∈ (execute fire .recompute maimed).2.character.injuries,
      injury.id ≠ "cut" := by decide +kernel
  have hcurrent : (execute fire .recompute maimed).2.character.state.current? "health" =
      some (some 5) := by decide +kernel
  have hlowered : (execute [] .recompute (execute []
      (.amend .state fun s ↦ .ok (s.setCurrent "health" 2))
        (execute fire .recompute maimed).2).2).1.isOk = true := by decide +kernel
  obtain ⟨reply, t, h⟩ := exists_execute_eq_ok hok
  rw [h] at hnew hcurrent hlowered
  obtain ⟨hadd, hremove, hlower⟩ := injuries_monotone (s := maimed) htame hreentrant rfl h
  obtain ⟨u, hu, hworsens, -⟩ := hadd burn
  obtain ⟨v, w, hv, hw, -, hleft⟩ := hremove "cut" cuts (by simp [cuts]) hnew
  obtain ⟨u', hu', hrecompute⟩ := hlower "health" 5 2 hcurrent (by decide)
  rw [hu'] at hlowered
  obtain ⟨reply', v', hv'⟩ := exists_execute_eq_ok hlowered
  exact ⟨reply, t, h, ⟨u, hu, hworsens⟩, ⟨v, w, hv, hw, hleft⟩, hcurrent,
    u', reply', v', hu', hv', hrecompute reply' v' hv'⟩

end Session

end CharacterSheet
