import CharacterSheet.Document.Issue
import CharacterSheet.SourceError

/-!
# Failures

What can stop the engine itself, as opposed to a single source: misuse of a pass, a slot or a
resource that does not exist, values that cannot be put in order, a quotient beyond all doubles, and
a command that cannot be carried out because its description is wrong.
-/

namespace CharacterSheet

inductive Failure where
  /-- A source error outside the passes that contain it. -/
  | source (e : SourceError)
  /-- A delta contributes to a resource field that belongs to no pool. -/
  | unknownResource (field : String)
  /-- A name is looked up where it is not. -/
  | missingEntry (name : String)
  | incomparable (a b : Value.Kind)
  | quotientTooLarge
  | restoredTwice
  | noBaseline (character : String)
  | stageBeforeRestore (stage : String)
  | alreadyRunning (character : String)
  | rebuildDuringPass (character : String)
  | unknownSlot (slot : String)
  | unknownCommand (name : String)
  /-- A command comes with a document that does not pass its checks. -/
  | invalidDocument (issues : List Issue)
  /-- A command names a kind of diagnostic that there is not. -/
  | unknownKind (name : String)
  deriving DecidableEq, Repr

/-- Two moments have no order when the offset of one of them only is known. -/
def incomparableMessage (a b : Value.Kind) : String :=
  if a = .moment ∧ b = .moment then "can't compare offset-naive and offset-aware datetimes"
  else if (a = .moment ∧ b = .date) ∨ (a = .date ∧ b = .moment) then
    "can't compare datetime.datetime to datetime.date"
  else "'<' not supported between instances of '" ++ a.fullName ++ "' and '" ++ b.fullName ++ "'"

def Failure.message : Failure → String
  | source e => e.message
  | unknownResource field => Text.quoted field
  | missingEntry name => Text.quoted name
  | incomparable a b => incomparableMessage a b
  | quotientTooLarge => "integer division result too large for a float"
  | restoredTwice => "restore called twice in one pass"
  | noBaseline character => "character " ++ Text.quoted character ++ " has no baseline"
  | stageBeforeRestore stage => "stage " ++ stage ++ " ran before restore"
  | alreadyRunning character => "recompute already running for " ++ Text.quoted character
  | rebuildDuringPass character =>
    "cannot rebuild " ++ Text.quoted character ++ " during a recompute"
  | unknownSlot slot => "Unknown equipment slot: " ++ slot
  | unknownCommand name => name
  | invalidDocument issues => toString issues.length ++ " validation errors"
  | unknownKind name => Text.quoted name ++ " is not a valid DiagnosticKind"

end CharacterSheet
