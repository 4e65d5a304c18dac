import CharacterSheet.State.Apply

/-!
# Totals of gates

The totals of some effects list the targets of the schema, each with the sum of the effects on it.
An effect on any other target is filed but counts in no totals.
-/

namespace CharacterSheet

def EffectKind.targets : EffectKind → List String
  | skill => Schema.skills
  | mitigation => Schema.mitigations

def effectSum (kind : EffectKind) (name : String) : List GatedEffect → Int
  | [] => 0
  | e :: es => (if e.kind = kind ∧ e.subtype = name then e.value else 0) + effectSum kind name es

namespace GateTotals

def table (t : GateTotals) : EffectKind → Table Int
  | .skill => t.skills
  | .mitigation => t.mitigation

theorem keys_table_add (t : GateTotals) (e : GatedEffect) (kind : EffectKind) :
    ((t.add e).table kind).keys = (t.table kind).keys := by
  obtain ⟨kind', subtype, value⟩ := e
  cases kind <;> cases kind' <;> simp [add, table]

theorem get?_table_add (t : GateTotals) (e : GatedEffect) (kind : EffectKind) (name : String) :
    ((t.add e).table kind).get? name = ((t.table kind).get? name).map
      fun n ↦ n + if e.kind = kind ∧ e.subtype = name then e.value else 0 := by
  obtain ⟨kind', subtype, value⟩ := e
  by_cases hname : name = subtype
  · subst hname
    cases kind <;> cases kind' <;> simp [add, table]
  · have hname' : ¬ subtype = name := fun h ↦ hname h.symm
    cases kind <;> cases kind' <;> simp [add, table, hname, hname']

theorem get?_table_foldl_add (t : GateTotals) (es : List GatedEffect) (kind : EffectKind)
    (name : String) : ((es.foldl add t).table kind).get? name =
      ((t.table kind).get? name).map fun n ↦ n + effectSum kind name es := by
  induction es generalizing t with
  | nil => simp [effectSum]
  | cons e es ih =>
    rw [List.foldl_cons, ih, get?_table_add, Option.map_map]
    refine congrArg (fun f ↦ ((t.table kind).get? name).map f) (funext fun n ↦ ?_)
    simp only [Function.comp, effectSum, Int.add_assoc]

/-- Totals sum up the effects on the targets that they list, and nothing else. -/
theorem getD_table_ofEffects (es : List GatedEffect) (kind : EffectKind) (name : String) :
    ((ofEffects es).table kind).getD name 0 =
      if name ∈ kind.targets then effectSum kind name es else 0 := by
  have hempty : (({} : GateTotals).table kind).get? name =
      if name ∈ kind.targets then some 0 else none := by
    cases kind with
    | skill => exact Table.get?_ofNames _ 0 Schema.nodup_skills name
    | mitigation => exact Table.get?_ofNames _ 0 Schema.nodup_mitigations name
  rw [ofEffects, Table.getD, get?_table_foldl_add, hempty]
  split <;> simp

end GateTotals

namespace Conditionals

/-- What a gate adds to a target while it is satisfied. -/
def total (c : Conditionals) (gate : String) (kind : EffectKind) (name : String) : Int :=
  match c.totals.get? gate with
  | some t => (t.table kind).getD name 0
  | none => 0

def filed (c : Conditionals) (gate : String) : List GatedEffect := c.effects.getD gate []

/-- The totals of each gate are the sums of the effects filed under it. -/
def Summed (c : Conditionals) : Prop :=
  ∀ (gate : Gate) (kind : EffectKind) (name : String),
    c.total gate.name kind name = effectSum kind name (c.filed gate.name)

/-- Totals computed from the effects that are filed. -/
theorem total_of_totals_eq {c : Conditionals} (h : c.totals = c.effects.map GateTotals.ofEffects)
    (gate : String) (kind : EffectKind) (name : String) :
    c.total gate kind name =
      if name ∈ kind.targets then effectSum kind name (c.filed gate) else 0 := by
  rw [total, filed, h, Table.map, Table.get?_mapWithKey, Table.getD]
  cases c.effects.get? gate with
  | none => simp [effectSum]
  | some es => exact GateTotals.getD_table_ofEffects es kind name

theorem summed_default : ({} : Conditionals).Summed := by
  intro gate kind name
  have hzero : (({} : GateTotals).table kind).getD name 0 = 0 := by
    cases kind with
    | skill => exact Table.getD_ofNames _ 0 Schema.nodup_skills name
    | mitigation => exact Table.getD_ofNames _ 0 Schema.nodup_mitigations name
  cases gate <;> exact hzero

end Conditionals

end CharacterSheet
