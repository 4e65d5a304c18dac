import CharacterSheet.Document.Issue
import CharacterSheet.Settings.Environment
import CharacterSheet.Value.Written
import CharacterSheet.Yaml.Fault

/-!
# Errors of content

Why a file cannot be loaded, why content is not valid, and why a document cannot be decoded at all.
-/

namespace CharacterSheet

inductive Refusal where
  | notADirectory | isADirectory | nameTooLong
  deriving DecidableEq, Repr

namespace Refusal

def number : Refusal → Nat
  | notADirectory => 20
  | isADirectory => 21
  | nameTooLong => 36

def reason : Refusal → String
  | notADirectory => "Not a directory"
  | isADirectory => "Is a directory"
  | nameTooLong => "File name too long"

/-- What the file system says about a path. -/
def message (r : Refusal) (path : String) : String :=
  "[Errno " ++ toString r.number ++ "] " ++ r.reason ++ ": " ++ Text.quoted path

end Refusal

inductive ContentError where
  /-- The text of a file is no document. -/
  | notADocument (file : String)
  | fileMissing (file : String)
  | fileRefused (file : String) (refusal : Refusal)
  /-- A directory cannot even be looked for. -/
  | directoryRefused (directory : String) (refusal : Refusal)
  /-- A path holds a character that no path can hold. -/
  | brokenPath
  | emptyFile (file : String)
  | topLevelNotAMap (file : String)
  | notADirectory (directory : String)
  | sectionNotAList (category file : String)
  | entryNotAMap (category file : String)
  | invalidEntry (id category file : String) (issues : List Issue)
  | invalidCharacter (file : String) (issues : List Issue)
  | unknownReference (character kind key : String)
  | unknownOption (module option : String)
  | unknownEquipmentSlot (character slot : String)
  | unknownAttribute (character name : String)
  | unknownSkill (character name : String)
  | unknownTierField (character field skill : String)
  | unknownPool (character name : String)
  /-- The reader of a file stops, and not because the text of the file is no document. -/
  | readerCrash (c : Yaml.Crash)
  /-- The id of an entry that is not valid cannot be written. -/
  | unwritableId (u : Unwritable)
  /-- There are no settings to make base values with. -/
  | noSettings (e : SettingsError)
  | unknownSection (category : String)
  /-- A module in use has options that cannot be looked at. -/
  | badModule (e : SourceError)
  deriving DecidableEq, Repr

namespace ContentError

/-- The classes of error: files that cannot be loaded are skipped, content that is not valid is
refused, and nothing is done about the rest. -/
inductive Severity where
  | load | validation | fatal
  deriving DecidableEq, Repr

def severity : ContentError → Severity
  | notADocument _ => .load
  | fileMissing _ => .load
  | fileRefused .. => .load
  | emptyFile _ => .load
  | topLevelNotAMap _ => .load
  | notADirectory _ => .load
  | directoryRefused .. => .fatal
  | brokenPath => .fatal
  | readerCrash _ => .fatal
  | unwritableId _ => .fatal
  | noSettings _ => .fatal
  | unknownSection _ => .fatal
  | badModule _ => .fatal
  | _ => .validation

private def inCharacter (character rest : String) : String :=
  "Character '" ++ character ++ "' " ++ rest

def message : ContentError → String
  | notADocument file => "YAML parsing error in " ++ file
  | fileMissing file => "File not found: " ++ file
  | fileRefused file refusal => "Error loading " ++ file ++ ": " ++ refusal.message file
  | directoryRefused directory refusal => refusal.message directory
  | brokenPath => "embedded null byte"
  | emptyFile file => "Empty YAML file: " ++ file
  | topLevelNotAMap file => "Top level of " ++ file ++ " must be a mapping"
  | notADirectory directory => "Not a directory: " ++ directory
  | sectionNotAList category file => "'" ++ category ++ "' must be a list in " ++ file
  | entryNotAMap category file =>
    "Entry in '" ++ category ++ "' of " ++ file ++ " must be a mapping"
  | invalidEntry id category file _ =>
    "Invalid entry '" ++ id ++ "' in '" ++ category ++ "' of " ++ file
  | invalidCharacter file _ => "Invalid character in " ++ file
  | unknownReference character kind key =>
    inCharacter character ("references unknown " ++ kind ++ " '" ++ key ++ "'")
  | unknownOption module option => "Module '" ++ module ++ "' has no option '" ++ option ++ "'"
  | unknownEquipmentSlot character slot =>
    inCharacter character ("uses unknown equipment slot '" ++ slot ++ "'")
  | unknownAttribute character name =>
    inCharacter character ("has unknown attribute '" ++ name ++ "'")
  | unknownSkill character name => inCharacter character ("has unknown skill '" ++ name ++ "'")
  | unknownTierField character field skill =>
    inCharacter character ("has unknown tier field '" ++ field ++ "' on '" ++ skill ++ "'")
  | unknownPool character name =>
    inCharacter character ("sets current value of unknown resource '" ++ name ++ "'")
  | readerCrash c => c.message
  | unwritableId u => u.message
  | noSettings e => e.message
  | unknownSection category => Text.quoted category
  | badModule e => e.message

def issues : ContentError → Option (List Issue)
  | invalidEntry _ _ _ issues => some issues
  | invalidCharacter _ issues => some issues
  | _ => none

end ContentError

end CharacterSheet
