import CharacterSheet.SourceError

/-!
# Written values

A value is written into a message.  An integer of too many digits is not written, and neither is a
collection that is nested too deeply.
-/

namespace CharacterSheet

/-- Why a value cannot be written. -/
inductive Unwritable where
  | overlong | tooDeep
  deriving DecidableEq, Repr

def Unwritable.message : Unwritable → String
  | overlong =>
    "Exceeds the limit (" ++ toString SourceError.digitLimit
      ++ " digits) for integer string conversion; use sys.set_int_max_str_digits() to increase"
      ++ " the limit"
  | tooDeep => "maximum recursion depth exceeded while getting the repr of an object"

namespace Value

mutual

/-- What keeps a value from being written, if its collections may be nested so many levels deep. -/
def unwritable? (levels : Nat) : Value → Option Unwritable
  | int n => if SourceError.digitLimit < (toString n.natAbs).length then some .overlong else none
  | tuple items => if levels = 0 then some .tooDeep else anyUnwritable? (levels - 1) items
  | list items => if levels = 0 then some .tooDeep else anyUnwritable? (levels - 1) items
  | set members => if levels = 0 then some .tooDeep else anyUnwritable? (levels - 1) members
  | map entries => if levels = 0 then some .tooDeep else entryUnwritable? (levels - 1) entries
  | _ => none

def anyUnwritable? (levels : Nat) : List Value → Option Unwritable
  | [] => none
  | v :: vs => (unwritable? levels v).or (anyUnwritable? levels vs)

def entryUnwritable? (levels : Nat) : List (Value × Value) → Option Unwritable
  | [] => none
  | e :: es => ((unwritable? levels e.1).or (unwritable? levels e.2)).or
      (entryUnwritable? levels es)

end

/-- The text of a value inside a message, if there is room for its levels. -/
def written (levels : Nat) (v : Value) : Except Unwritable String :=
  match v.unwritable? levels with
  | some u => .error u
  | none => .ok v.display

end Value

end CharacterSheet
