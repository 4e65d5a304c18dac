import CharacterSheet.Value

/-!
# Why a source cannot be processed

The fields of a source may hold anything.  Each way in which a field can resist being read has a
cause here, and each cause has its text.
-/

namespace CharacterSheet

inductive SourceError where
  /-- A data code is a text or nothing. -/
  | codeNotText (kind : Value.Kind)
  /-- An integer is written with more digits than are converted. -/
  | overlong (digits : Nat)
  /-- A text is no integer of a base. -/
  | notAnInteger (base : Nat) (written : String)
  | notANumber (kind : Value.Kind)
  | infiniteInteger
  | nanInteger
  | notACollection (kind : Value.Kind)
  | notAMap (kind : Value.Kind)
  /-- Collections cannot be members of a set. -/
  | notAMember (kind : Value.Kind)
  /-- A member of an option list is not an option. -/
  | notAnOption (kind : Value.Kind) (field : String)
  deriving DecidableEq, Repr

namespace SourceError

/-- The number of digits up to which an integer is converted. -/
def digitLimit : Nat := 4300

def message : SourceError → String
  | codeNotText kind => "data code must be a string, got " ++ kind.name
  | overlong digits =>
    "Exceeds the limit (" ++ toString digitLimit
      ++ " digits) for integer string conversion: value has " ++ toString digits
      ++ " digits; use sys.set_int_max_str_digits() to increase the limit"
  | notAnInteger base written =>
    "invalid literal for int() with base " ++ toString base ++ ": "
      ++ String.ofList (written.toList.take 200)
  | notANumber kind =>
    "int() argument must be a string, a bytes-like object or a real number, not '"
      ++ kind.fullName ++ "'"
  | infiniteInteger => "cannot convert float infinity to integer"
  | nanInteger => "cannot convert float NaN to integer"
  | notACollection kind => "'" ++ kind.fullName ++ "' object is not iterable"
  | notAMap kind => "'" ++ kind.fullName ++ "' object has no attribute 'items'"
  | notAMember kind => "unhashable type: '" ++ kind.fullName ++ "'"
  | notAnOption kind field =>
    "'" ++ kind.fullName ++ "' object has no attribute '" ++ field ++ "'"

end SourceError

end CharacterSheet
