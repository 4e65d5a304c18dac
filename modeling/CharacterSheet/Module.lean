import CharacterSheet.Item

/-!
# Build modules

Traits, ancestries and other modules shape a character when it is built.  Each has options, of which
the selected ones contribute.  The options are held as found: they need not be a collection, and the
members of a collection need not be options.
-/

namespace CharacterSheet

inductive ModuleKind where
  | trait | ancestry | core | secondary | personality
  deriving DecidableEq, Repr

namespace ModuleKind

def name : ModuleKind → String
  | trait => "trait"
  | ancestry => "ancestry"
  | core => "core"
  | secondary => "secondary"
  | personality => "personality"

def all : List ModuleKind := [trait, ancestry, core, secondary, personality]

/-- Traits come first, then the ancestry, then all other modules. -/
def rank : ModuleKind → Fin 3
  | trait => 0
  | ancestry => 1
  | _ => 2

end ModuleKind

structure ModuleOption where
  name : String
  data : Value := .null
  selected : Bool := false
  location : Option String := none
  deriving Repr

/-- A member of an option list. -/
inductive OptionEntry where
  | option (o : ModuleOption)
  | other (kind : Value.Kind)
  deriving Repr

/-- The options of a module as found. -/
inductive OptionList where
  | entries (es : List OptionEntry)
  | notACollection (kind : Value.Kind)
  deriving Repr

structure Module where
  id : String
  name : String := ""
  kind : ModuleKind := .core
  options : OptionList := .entries []
  deriving Repr

namespace OptionList

def ofOptions (os : List ModuleOption) : OptionList := .entries (os.map .option)

/-- The options, if all members are options; `field` is what is asked of each. -/
def all (field : String) : OptionList → Except SourceError (List ModuleOption)
  | notACollection kind => .error (.notACollection kind)
  | entries es => es.mapM fun
    | .option o => .ok o
    | .other kind => .error (.notAnOption kind field)

/-- Changes every option. -/
def map (f : ModuleOption → ModuleOption) : OptionList → OptionList
  | notACollection kind => .notACollection kind
  | entries es => .entries (es.map fun
    | .option o => .option (f o)
    | .other kind => .other kind)

end OptionList

namespace Module

/-- The options that contribute to a build. -/
def selectedOptions (m : Module) : Except SourceError (List ModuleOption) := do
  let os ← m.options.all "selected"
  return os.filter ModuleOption.selected

/-- Reads options in order and merges what they contribute into a delta. -/
def readOptions (d : Delta) : List ModuleOption → DataCode.Reading Delta
  | [] => .done d
  | o :: os => (DataCode.readValue o.data).andThen fun d' ↦ readOptions (d.merge d') os

/-- What the selected options of a module contribute together. -/
def reading (m : Module) : DataCode.Reading Delta :=
  match m.selectedOptions with
  | .error e => ⟨[], .error e⟩
  | .ok os => readOptions .empty os

/-- Modules in the order in which they are applied: by rank, and within a rank as listed. -/
def inBuildOrder (ms : List Module) : List Module :=
  ms.filter (·.kind.rank == 0) ++ ms.filter (·.kind.rank == 1) ++ ms.filter (·.kind.rank == 2)

@[simp] theorem mem_inBuildOrder {m : Module} {ms : List Module} :
    m ∈ inBuildOrder ms ↔ m ∈ ms := by
  have h : m.kind.rank = 0 ∨ m.kind.rank = 1 ∨ m.kind.rank = 2 := by omega
  simp only [inBuildOrder, List.mem_append, List.mem_filter, beq_iff_eq]
  exact ⟨fun h ↦ by rcases h with (h | h) | h <;> exact h.1,
    fun hm ↦ by rcases h with h | h | h <;> simp [hm, h]⟩

end Module

end CharacterSheet
