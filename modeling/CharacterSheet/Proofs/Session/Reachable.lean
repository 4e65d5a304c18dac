import CharacterSheet.Proofs.Content.Checked
import CharacterSheet.Proofs.Session.Rebuild

/-!
# Reachable characters

A character is assembled from checked content, and then rebuilt, recomputed and changed, with
checked items, one command after the other.  Each command that returns ends with a
completed pass over a sound baseline, so after any of them the working state is consistent.
-/

namespace CharacterSheet

/-- A command that asks for a rebuild or a recompute, or makes a change with checked items. -/
def Command.Ordinary : Command → Prop
  | .rebuild | .recompute => True
  | .change (.equip _ item) | .change (.addTraining item) => item.Checked
  | .change _ => True
  | _ => False

theorem Character.SameInputs.sound {c c' : Character} (h : c.SameInputs c') (hc : c.Sound)
    (hidle : c'.status = .idle) : c'.Sound := by
  rw [SameInputs, withRun] at h
  constructor
  · rw [h]
    exact hc.base
  · rw [h]
    exact hc.baseline
  · rw [h]
    exact hc.worn
  · exact hidle

namespace Change

theorem worn?_set {e : Equipment} {slot slot' : String} {worn : Option Item} :
    Equipment.worn? (e.set slot worn) slot' = if slot' = slot then worn else e.worn? slot' := by
  rw [Equipment.worn?, Equipment.worn?, Table.getD, Table.get?_set, Table.getD]
  split <;> rfl

theorem sound_apply {change : Change} {c c' : Character} (hc : c.Sound)
    (hchange : Command.Ordinary (.change change)) (h : change.apply c = .ok c') : c'.Sound := by
  unfold apply at h
  cases hslot : change.slot?.filter (!slots.contains ·) with
  | some slot =>
    rw [hslot] at h
    cases h
  | none =>
    rw [hslot] at h
    cases change with
    | equip slot item =>
      obtain rfl := Except.ok.inj h
      refine ⟨hc.base, hc.baseline, fun slot' item' hworn ↦ ?_, hc.idle⟩
      rw [worn?_set] at hworn
      split at hworn
      · exact Option.some.inj hworn ▸ hchange
      · exact hc.worn slot' item' hworn
    | unequip slot =>
      obtain rfl := Except.ok.inj h
      refine ⟨hc.base, hc.baseline, fun slot' item' hworn ↦ ?_, hc.idle⟩
      rw [worn?_set] at hworn
      split at hworn
      · cases hworn
      · exact hc.worn slot' item' hworn
    | _ =>
      obtain rfl := Except.ok.inj h
      exact ⟨hc.base, hc.baseline, hc.worn, hc.idle⟩

end Change

namespace Session

/-- Commands carried out one after the other, each of which returns. -/
inductive Runs : List Command → Session → Session → Prop
  | nil (s : Session) : Runs [] s s
  | cons {command : Command} {commands : List Command} {s t u : Session} {reply : Reply} :
    execute [] command s = (.ok reply, t) → Runs commands t u → Runs (command :: commands) s u

/-- The character is sound, and its working state agrees with what a pass would read. -/
structure Reached (s : Session) : Prop where
  sound : s.character.Sound
  consistent : s.character.state.Consistent s.character.loadout

theorem bringsNames_of_worn {c : Character} (hc : c.Sound) :
    ∀ item ∈ c.loadout.equipment.wornItems, item.BringsNames := by
  intro item hitem
  obtain ⟨slot, -, hworn⟩ := List.mem_filterMap.1 hitem
  exact (hc.worn slot item hworn).bringsNames

/-- A recompute that returns ends with a completed pass, from a sound character to a consistent
one. -/
theorem reached_of_recomputeBuilt {s t : Session} {baseline : State} (hs : s.character.Sound)
    (hb : s.character.baseline = some baseline)
    (h : carryOut (recomputeBuilt quiet) s = (.ok (), t)) : t.Reached := by
  obtain ⟨passes, u, hpasses, rfl⟩ := carryOut_recomputeBuilt_eq_ok_iff.1 h
  obtain ⟨r, -, hinputs, hcompleted, rfl⟩ := exists_last_pass (s := s.begun) hb hpasses
  let last := (r.afterPass (r.passOver baseline)).dequeued.ended passes
  have hinputs : s.character.SameInputs r.character := hinputs
  have hlast : last.character.Sound :=
    (hinputs.trans (Character.sameInputs_withRun ..)).sound hs rfl
  have hworn := bringsNames_of_worn hlast
  exact ⟨hlast, Overlay.consistent_run (hs.baseline baseline hb) hworn hcompleted⟩

theorem reached_of_rebuild {s t : Session} (hs : s.character.Sound)
    (h : carryOut (rebuild quiet) s = (.ok (), t)) : t.Reached := by
  have hidle := ne_recomputing_of_idle hs.idle
  rw [carryOut_rebuild quiet hidle] at h
  cases hfailure : s.build.failure with
  | some e =>
    rw [hfailure] at h
    cases h
  | none =>
    rw [hfailure] at h
    have hbuilt : s.build.state.Sound := Build.sound_run hs.base ..
    refine reached_of_recomputeBuilt (s := s.rebuilt s.build) ?_ rfl h
    exact ⟨hs.base, fun b hb ↦ Option.some.inj hb ▸ hbuilt, hs.worn, hs.idle⟩

theorem reached_of_recompute {s t : Session} (hs : s.character.Sound)
    (h : carryOut (recompute quiet) s = (.ok (), t)) : t.Reached := by
  have hidle := ne_recomputing_of_idle hs.idle
  rw [carryOut_recompute quiet hidle] at h
  cases hb : s.character.baseline with
  | none =>
    rw [hb] at h
    exact reached_of_rebuild hs h
  | some baseline =>
    rw [hb] at h
    exact reached_of_recomputeBuilt hs hb h

theorem reached_of_makeChange {s t : Session} {change : Change} {reply : Reply}
    (hs : s.character.Sound) (hchange : Command.Ordinary (.change change))
    (h : carryOut (makeChange quiet change) s = (.ok reply, t)) : t.Reached := by
  have hidle := ne_recomputing_of_idle hs.idle
  rw [carryOut_makeChange_of_idle quiet hidle] at h
  cases happly : change.apply s.character with
  | error e =>
    rw [happly] at h
    cases h
  | ok c =>
    rw [happly] at h
    obtain ⟨⟨⟩, u, hu, hdone⟩ := carryOut_bind_eq_ok_iff.1 h
    obtain ⟨-, rfl⟩ := Prod.mk.inj hdone
    have hc : c.Sound := Change.sound_apply hs hchange happly
    exact reached_of_recompute (s := { s with character := c }) hc hu

/-- One command: from a sound character to a consistent one. -/
theorem reached_of_execute {s t : Session} {command : Command} {reply : Reply}
    (hs : s.character.Sound) (hcommand : command.Ordinary)
    (h : execute [] command s = (.ok reply, t)) : t.Reached := by
  rw [execute_eq, List.length_nil, interruptions_zero] at h
  have hs : (s.scheduled []).character.Sound := hs
  cases command with
  | rebuild =>
    obtain ⟨⟨⟩, u, hu, hdone⟩ := carryOut_bind_eq_ok_iff.1 h
    obtain ⟨-, rfl⟩ := Prod.mk.inj hdone
    exact reached_of_rebuild hs hu
  | recompute =>
    obtain ⟨⟨⟩, u, hu, hdone⟩ := carryOut_bind_eq_ok_iff.1 h
    obtain ⟨-, rfl⟩ := Prod.mk.inj hdone
    exact reached_of_recompute hs hu
  | change change => exact reached_of_makeChange hs hcommand h
  | _ => exact absurd hcommand id

theorem reached_of_runs {commands : List Command} {s t : Session} (hs : s.Reached)
    (hcommands : ∀ command ∈ commands, command.Ordinary) (h : Runs commands s t) : t.Reached := by
  induction h with
  | nil => exact hs
  | cons hfirst _ ih =>
    have hnext := reached_of_execute hs.sound (hcommands _ List.mem_cons_self) hfirst
    exact ih hnext fun command hmem ↦ hcommands command (List.mem_cons_of_mem _ hmem)

/-- Whatever is assembled from checked content, after any commands that return the working state is
consistent. -/
theorem consistent_of_runs {t : CharacterTemplate} {settings : Except SettingsError Settings}
    {catalog : Catalog} {commands : List Command} {s u : Session} (hcatalog : catalog.Checked)
    (hassembled : t.assemble settings catalog = .ok s.character)
    (hcommands : ∀ command ∈ commands, command.Ordinary) (hsome : commands ≠ [])
    (hruns : Runs commands s u) :
    u.character.state.Consistent u.character.loadout := by
  have hs : s.character.Sound := CharacterTemplate.sound_assemble hcatalog hassembled
  cases hruns with
  | nil => exact absurd rfl hsome
  | cons hfirst hrest =>
    have hnext := reached_of_execute hs (hcommands _ List.mem_cons_self) hfirst
    have hlast := reached_of_runs hnext
      (fun command hmem ↦ hcommands command (List.mem_cons_of_mem _ hmem)) hrest
    exact hlast.consistent

/-- Light armor whose code looks at the body. -/
def vest : Item :=
  .ofChecked "vest" "Vest" "" .armor (some .light) (some "M1=1:CB[SSB=2,M1=1]") 0 .empty [] []

theorem checked_vest : vest.Checked := ⟨_, _, _, _, _, _, _, _, _, _, rfl⟩

def charm : Item :=
  .ofChecked "charm" "Charm" "" .misc none none 0 .empty [] ["prone", "afraid"]

theorem checked_charm : charm.Checked := ⟨_, _, _, _, _, _, _, _, _, _, rfl⟩

def elf : Module :=
  .ofChecked "elf" "Elf" .ancestry [.ofChecked "grace" (some "TA=elf:TA:CA[SSE=1]") false none]

theorem checked_elf : elf.Checked := by
  refine ⟨_, _, _, _, fun o ho ↦ ?_, rfl⟩
  rw [List.mem_singleton.1 ho]
  exact ⟨_, _, _, _, rfl⟩

/-- Content with armor, a charm, an injury and a module. -/
def camp : Catalog where
  items := .ofPairs [("vest", vest), ("charm", charm)]
  injuries := .ofPairs [("burn", { id := "burn", name := "Burn", pain := 4, stress := 0 })]
  modules := .ofPairs [("elf", elf)]

theorem checked_camp : camp.Checked where
  items := fun id item hitem ↦ by
    have hlisted := Table.mem_of_get?_ofPairs hitem
    simp only [List.mem_cons, List.not_mem_nil, or_false, Prod.mk.injEq] at hlisted
    rcases hlisted with ⟨-, rfl⟩ | ⟨-, rfl⟩
    · exact checked_vest
    · exact checked_charm
  modules := fun id m hm ↦ by
    have hlisted := Table.mem_of_get?_ofPairs hm
    simp only [List.mem_cons, List.not_mem_nil, or_false, Prod.mk.injEq] at hlisted
    exact hlisted.2 ▸ checked_elf

/-- A character with a tier under an older field name, low health and more mana than there can
be. -/
def ada : CharacterTemplate where
  name := "Ada"
  attributes := .ofPairs [("finesse", 2)]
  skills := .ofPairs [("evasion", 1)]
  skillTiers := .ofPairs [("brawling", .ofPairs [("tierModifier", 1)])]
  resources := .ofPairs [("health", 8), ("mana", 3)]
  current := .ofPairs [("health", 2), ("mana", 5)]
  modules := .ofPairs [("elf", ["grace"])]
  trainings := []
  equipment := .ofPairs [("head", "charm")]
  injuries := ["burn"]
  conditions := ["prone", "winded"]
  painModifier := 1
  stressModifier := -2

def encamped : Session where
  settings := {}
  character := (ada.assemble (.ok {}) camp).toOption.getD neglected.character

theorem assemble_ada : ada.assemble (.ok {}) camp = .ok encamped.character :=
  eq_ok_getD_of_isOk (by decide +kernel) neglected.character

theorem consistent_encamped : ∃ u : Session,
    Runs [.rebuild, .change (.equip "body" vest)] encamped u ∧
      u.character.state.Consistent u.character.loadout := by
  have hbuilt : (execute [] .rebuild encamped).1.isOk = true := by decide +kernel
  have hworn : (execute [] (.change (.equip "body" vest))
      (execute [] .rebuild encamped).2).1.isOk = true := by decide +kernel
  obtain ⟨r, t, ht⟩ := exists_execute_eq_ok hbuilt
  rw [ht] at hworn
  dsimp only at hworn
  obtain ⟨r', u, hu⟩ := exists_execute_eq_ok hworn
  have hruns : Runs [.rebuild, .change (.equip "body" vest)] encamped u :=
    .cons ht (.cons hu (.nil u))
  refine ⟨u, hruns, consistent_of_runs checked_camp assemble_ada ?_ (List.cons_ne_nil _ _) hruns⟩
  intro command hcommand
  simp only [List.mem_cons, List.not_mem_nil, or_false] at hcommand
  rcases hcommand with rfl | rfl
  · trivial
  · exact checked_vest

end Session

end CharacterSheet
