import CharacterSheet.Proofs.Session.Queue

/-!
# Characters at rest

A call that comes back leaves an idle character with nothing queued, which another pass leaves as it
is.  A change to such a character runs exactly one pass: over the changed sources, and over the
working state that was left.
-/

namespace CharacterSheet

namespace Session

open Interruption

variable {s t : Session} {baseline : State}

/-- The passes of a recompute that comes back leave a settled character, also when a change was
queued before the first of them. -/
theorem settled_of_runPasses {depth fuel count n : Nat} {s u : Session}
    (hs : s.Interruptible depth) (hb : s.character.baseline = some baseline)
    (hfuel : pending s.schedule + 1 < fuel)
    (h : carryOut (runPasses (interruptions depth) fuel count) s = (.ok n, u)) :
    u.character.baseline = some baseline ∧ Settled baseline u := by
  have hunqueued {fuel count : Nat} {r : Session} (hr : r.Interruptible depth)
      (hrb : r.character.baseline = some baseline) (hqueued : r.character.queued = false)
      (hfuel : pending r.schedule < fuel)
      (h : carryOut (runPasses (interruptions depth) fuel count) r = (.ok n, u)) :
      u.character.baseline = some baseline ∧ Settled baseline u := by
    obtain ⟨passes, -, hcompleted, -⟩ := completed_of_carryOut hr hrb hqueued hfuel h
    have hkept : u.character.baseline = r.character.baseline :=
      hcompleted.interrupted.inputs.baseline_eq.trans (Character.kept_replayed ..).2
    exact ⟨hkept.trans hrb, hcompleted.settled⟩
  cases hqueued : s.character.queued with
  | false => exact hunqueued hs hb hqueued (by omega) h
  | true =>
    cases fuel with
    | zero => cases hfuel
    | succ fuel =>
      obtain ⟨r, hr, h⟩ := carryOut_runPasses_succ_eq_ok_iff.1 h
      have hpassed := passed_of_carryOut hs hb hr
      have hagain : r.character.queued = true := by
        rw [hpassed.queued, hqueued]
        rfl
      rw [hagain] at h
      have hpending : pending r.dequeued.schedule < fuel := by
        have hle := pending_later_le s.schedule
        rw [← hpassed.schedule] at hle
        exact Nat.lt_of_le_of_lt hle (by omega)
      exact hunqueued (hpassed.interruptible hs).dequeued (hpassed.baseline_eq.trans hb) rfl
        hpending h

/-- A call that comes back came to a recompute of a character that had been built. -/
theorem exists_starting_of_execute {call : Call} {reply : Reply} (hcall : call.Tame)
    (hidle : s.character.status = .idle)
    (h : execute call.schedule call.command s = (.ok reply, t)) :
    ∃ v, (s.scheduled call.schedule).starting? call.command = some v ∧
      v.schedule = call.schedule ∧ v.character.baseline.isSome ∧
      carryOut (recomputeBuilt (interruptions call.schedule.length)) v = (.ok (), t) := by
  have hstarts := starts_call hcall hidle
  rw [execute_eq] at h
  cases hv : (s.scheduled call.schedule).starting? call.command with
  | none =>
    rw [hv] at hstarts
    obtain ⟨e, u, hu, -⟩ := hstarts
    cases h.symm.trans hu
  | some v =>
    rw [hv] at hstarts
    obtain ⟨-, -, hschedule, hbuilt, answer, hx⟩ := hstarts
    refine ⟨v, rfl, hschedule, hbuilt, ?_⟩
    rw [h] at hx
    rcases hu : carryOut (recomputeBuilt (interruptions call.schedule.length)) v with ⟨e | ⟨⟩, u⟩
    · rw [hu] at hx
      cases hx
    · rw [hu] at hx
      rw [(Prod.mk.inj hx).2]

/-- A built character on which nothing is under way, and which another pass leaves as it is. -/
structure AtRest (t : Session) (baseline : State) : Prop where
  idle : t.character.status = .idle
  unqueued : t.character.queued = false
  baseline_eq : t.character.baseline = some baseline
  settled : Settled baseline t

/-- A recompute, a rebuild or a change that comes back leaves a character at rest, whatever changes
were made between its overlays. -/
theorem exists_atRest {call : Call} {reply : Reply} (hcall : call.Tame)
    (hreentrant : ∀ i ∈ call.schedule, ∀ a ∈ i.actions, a.Reentrant)
    (hidle : s.character.status = .idle)
    (h : execute call.schedule call.command s = (.ok reply, t)) :
    ∃ baseline, t.AtRest baseline := by
  have hleft := left_of_execute hcall hidle h
  obtain ⟨v, -, hschedule, hbuilt, hrun⟩ := exists_starting_of_execute hcall hidle h
  obtain ⟨passes, u, hpasses, rfl⟩ := carryOut_recomputeBuilt_eq_ok_iff.1 hrun
  obtain ⟨baseline, hb⟩ := Option.isSome_iff_exists.1 hbuilt
  have hbegun : v.begun.Interruptible call.schedule.length :=
    ⟨rfl, hschedule ▸ Nat.le_refl _, hschedule ▸ hreentrant⟩
  have hfuel : pending v.begun.schedule + 1 < v.schedule.length + 2 :=
    Nat.succ_lt_succ (Nat.lt_succ_of_le List.countP_le_length)
  obtain ⟨hlast, hsettled⟩ := settled_of_runPasses hbegun hb hfuel hpasses
  exact ⟨baseline, rfl, hleft.unqueued rfl, hlast,
    hsettled.completed, hsettled.state, hsettled.diagnostics⟩

/-- A change to a character at rest runs one pass. -/
theorem AtRest.exists_change (h : t.AtRest baseline) {change : Change} {c : Character}
    (happly : change.apply t.character = .ok c) :
    ∃ u, execute [] (.change change) t =
        ((outcome (Overlay.run t.settings c.loadout baseline t.character.state)).map
          fun _ ↦ change.reply t.character, u) ∧
      u.settings = t.settings ∧ u.character = { c with
        state := (Overlay.run t.settings c.loadout baseline t.character.state).state
        diagnostics :=
          (Overlay.run t.settings c.loadout baseline t.character.state).diagnostics } := by
  let r : Session := { t.scheduled [] with character := c }
  obtain ⟨hstatus, hqueued⟩ := Change.run_of_apply_eq_ok happly
  obtain ⟨-, hb, hstate⟩ := Change.layers_of_apply_eq_ok happly
  have hpass : r.passOver baseline =
      Overlay.run t.settings c.loadout baseline t.character.state := by rw [← hstate]; rfl
  have hidle : (t.scheduled []).character.status ≠ .recomputing := ne_recomputing_of_idle h.idle
  have happly' : change.apply (t.scheduled []).character = .ok c := happly
  obtain ⟨u, hu, hsettings, hcharacter⟩ := exists_carryOut_recompute_quiet (s := r)
    (hstatus.trans h.idle) (hqueued.trans h.unqueued) (hb.trans h.baseline_eq)
  rw [hpass] at hu hcharacter
  refine ⟨u, ?_, hsettings, hcharacter⟩
  rw [execute_eq, List.length_nil, interruptions_zero, perform,
    carryOut_makeChange_of_idle quiet hidle, happly']
  dsimp only
  rw [carryOut_bind, hu]
  cases outcome (Overlay.run t.settings c.loadout baseline t.character.state) <;> rfl

/-- A change comes back if the pass that it asks for completes, here with the problems that were
reported before. -/
theorem AtRest.exists_change_completed (h : t.AtRest baseline) {change : Change} {c : Character}
    (happly : change.apply t.character = .ok c) {l : Loadout} (hloadout : c.loadout = l)
    (hcompleted : (Overlay.run t.settings l baseline t.character.state).failure = none)
    (hdiagnostics : (Overlay.run t.settings l baseline t.character.state).diagnostics =
      (Overlay.run t.settings t.character.loadout baseline t.character.state).diagnostics) :
    ∃ u, execute [] (.change change) t = (.ok (change.reply t.character), u) ∧
      u.settings = t.settings ∧ u.character = { c with
        state := (Overlay.run t.settings l baseline t.character.state).state
        diagnostics := t.character.diagnostics } := by
  obtain ⟨u, hu, hsettings, hcharacter⟩ := h.exists_change happly
  rw [hloadout, outcome_of_completed hcompleted] at hu
  rw [hloadout, hdiagnostics.trans h.settled.diagnostics] at hcharacter
  exact ⟨u, hu, hsettings, hcharacter⟩

end Session

end CharacterSheet
