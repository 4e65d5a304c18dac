import CharacterSheet.Document.Check
import CharacterSheet.Folder
import CharacterSheet.Settings
import CharacterSheet.Settings.EnvFile
import CharacterSheet.State.Document
import CharacterSheet.Text.Lower
import CharacterSheet.Text.Utf8
import CharacterSheet.Value.Json

/-!
# Settings from the surroundings

Each setting can be given by a variable, in the surroundings or in a file of variables; the
surroundings win.  The names of the variables are those of the fields after a common beginning, in
small or capital letters.
-/

namespace CharacterSheet

/-- Where a variable comes from. -/
inductive VariableSource where
  | surroundings | file
  deriving DecidableEq, Repr

def VariableSource.name : VariableSource → String
  | surroundings => "EnvSettingsSource"
  | file => "DotEnvSettingsSource"

/-- Why there are no settings. -/
inductive SettingsError where
  /-- A list is not given as JSON. -/
  | notJson (field : String) (source : VariableSource)
  | invalid (issues : List Issue)
  /-- The bytes of the file of variables are no text. -/
  | notText (detail : String)
  deriving DecidableEq, Repr

def SettingsError.message : SettingsError → String
  | notJson field source =>
    "error parsing value for field \"" ++ field ++ "\" from source \"" ++ source.name ++ "\""
  | invalid issues => toString issues.length ++ " validation errors for Settings"
  | notText detail => detail

namespace Settings

open Check

/-- Settings from what their fields hold; what is not given takes its default. -/
def check : Value → Check Settings := record fun fields ↦
  let d : Settings := {}
  Settings.mk <$>
    defaulted fields "content_dir" d.contentDirectory (fun v ↦ Path.normalize <$> text v)
    <*> defaulted fields "default_walk_speed" d.defaultWalk integer
    <*> defaulted fields "prone_walk_speed" d.proneWalk integer
    <*> defaulted fields "immobilizing_conditions" d.immobilizing (listOf text)
    <*> defaulted fields "base_spell_slots" d.baseSpellSlots integer
    <*> defaulted fields "log_level" d.logLevel text
    <*> defaulted fields "log_format" d.logFormat text

def document (s : Settings) : Value := .ofFields
  [("content_dir", .text s.contentDirectory), ("default_walk_speed", .int s.defaultWalk),
    ("prone_walk_speed", .int s.proneWalk), ("immobilizing_conditions", .ofTexts s.immobilizing),
    ("base_spell_slots", .int s.baseSpellSlots), ("log_level", .text s.logLevel),
    ("log_format", .text s.logFormat)]

/-- The fields of settings, and whether each is given as JSON. -/
def fieldForms : List (String × Bool) :=
  [("content_dir", false), ("default_walk_speed", false), ("prone_walk_speed", false),
    ("immobilizing_conditions", true), ("base_spell_slots", false), ("log_level", false),
    ("log_format", false)]

/-- What the names of variables begin with. -/
def variableStem : String := "anyventure_"

/-- Variables under their names in small letters. -/
def byLowerName {α : Type} (t : Table α) : Table α :=
  .ofPairs (t.entries.map fun e ↦ (Text.lower e.1, e.2))

/-- Reads what a variable gives for a field; a null gives nothing. -/
def readVariable (source : VariableSource) (field : String) (json : Bool) (s : String) :
    Except SettingsError (Option Value) :=
  if json then match Json.read? s with
    | none => .error (.notJson field source)
    | some .null => .ok none
    | some v => .ok (some v)
  else .ok (some (.text s))

/-- The fields that some variables give. -/
def layer (source : VariableSource) (given : Table (Option String)) :
    Except SettingsError (Table Value) :=
  fieldForms.foldlM (fun t f ↦ do
    match ((byLowerName given).get? (variableStem ++ f.1)).join with
    | none => return t
    | some s => match ← readVariable source f.1 f.2 s with
      | some v => return t.set f.1 v
      | none => return t) .empty

/-- The file of variables. -/
def fileName : String := ".env"

/-- The text of the file of variables, if there is one. -/
def fileText (root : Entry) : Except SettingsError (List Char) :=
  match root.find fileName with
  | .ok (.file (.bytes bs)) =>
    ((Text.Utf8.decode bs).map Text.Utf8.unifyBreaks).mapError fun e ↦ .notText e.message
  | _ => .ok []

/-- Settings from the variables of the surroundings and the file of variables in a folder. -/
def ofSurroundings (outside : Table String) (root : Entry) : Except SettingsError Settings := do
  let file ← fileText root
  let own ← layer .surroundings (outside.map some)
  let filed ← layer .file (EnvFile.read outside file)
  let fields := own.entries.foldl (fun t e ↦ t.set e.1 e.2) filed
  (check (.ofTable id fields)).result.mapError .invalid

end Settings

end CharacterSheet
