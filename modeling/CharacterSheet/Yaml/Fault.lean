import CharacterSheet.SourceError
import CharacterSheet.Text.Utf8

/-!
# Faults of YAML texts

A text may fail to be a document.  Beside that, its bytes may fail to be a text, a scalar may have a
form that its type cannot take, or the reader may come to its limits.
-/

namespace CharacterSheet.Yaml

/-- Why a scalar cannot be converted. -/
inductive ScalarFault where
  | integer (e : SourceError)
  /-- Nothing but a sign and underscores stands for a number. -/
  | emptyNumber
  | notAFloat (written : String)
  | notATruth (written : String)
  /-- A group of a number in base sixty counts for more than a double can hold. -/
  | groupTooLarge
  | notAMoment
  /-- A moment is not given as a scalar. -/
  | momentNotText
  | calendar (f : CalendarFault)
  /-- An escape names a code point that there is not. -/
  | noSuchCharacter
  /-- An escape names a number beyond all that can be looked up. -/
  | characterTooLarge
  deriving DecidableEq, Repr

def ScalarFault.message : ScalarFault → String
  | integer e => e.message
  | emptyNumber => "string index out of range"
  | notAFloat written => "could not convert string to float: " ++ written
  | notATruth written => written
  | groupTooLarge => "int too large to convert to float"
  | notAMoment => "'NoneType' object has no attribute 'groupdict'"
  | momentNotText => "expected string or bytes-like object, got 'list'"
  | calendar f => f.message
  | noSuchCharacter => "chr() arg not in range(0x110000)"
  | characterTooLarge => "Python int too large to convert to C int"

/-- What stops a reader, other than a text that is no document. -/
inductive Crash where
  | notText (e : Text.Utf8.Error)
  | scalar (f : ScalarFault)
  /-- Anything else, such as collections that are nested too deeply. -/
  | stopped (message : String)
  deriving DecidableEq, Repr

def Crash.message : Crash → String
  | notText e => e.message
  | scalar f => f.message
  | stopped message => message

inductive Fault where
  | notADocument
  | crash (c : Crash)
  deriving DecidableEq, Repr

end CharacterSheet.Yaml
