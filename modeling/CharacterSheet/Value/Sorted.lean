import CharacterSheet.NameSet
import CharacterSheet.Value

/-!
# Sorted values

A set of names is listed in increasing order.  Values that are no names can be listed too, as long
as any two of them have a common order.
-/

namespace CharacterSheet.Value

/-- The texts of some values, if all of them are texts. -/
def texts? : List Value → Option (List String)
  | [] => some []
  | text s :: vs => (texts? vs).map (s :: ·)
  | _ :: _ => none

/-- Keeps the first of the values that are the same. -/
def distinct (vs : List Value) : List Value :=
  (vs.foldl (fun kept v ↦ if kept.any (·.sameKey v) then kept else v :: kept) []).reverse

/-! ## The order of values -/

/-- The scales on which values other than tuples are compared.  A moment without an offset is on
another scale than one with an offset. -/
inductive Scale where
  | number | text | bytes | date | clock | instant
  deriving DecidableEq, Repr

def scale? : Value → Option Scale
  | bool _ => some .number
  | int _ => some .number
  | float _ => some .number
  | text _ => some .text
  | bytes _ => some .bytes
  | date _ => some .date
  | moment m => some (if m.offset.isSome then .instant else .clock)
  | _ => none

mutual

/-- What keeps two different values from having an order: the kinds of two values that are on no
common scale, the later one first.  Tuples are compared at the first items that differ. -/
def clash? : Value → Value → Option (Kind × Kind)
  | tuple items, tuple items' => clashItems? items items'
  | v, w => if v.scale?.isSome && v.scale? == w.scale? then none else some (w.kind, v.kind)

def clashItems? : List Value → List Value → Option (Kind × Kind)
  | v :: vs, w :: ws => if v.sameKey w then clashItems? vs ws else clash? v w
  | _, _ => none

end

/-- The order of two numbers.  What is no number is below nothing. -/
def numberLe (a b : Value) : Bool :=
  match a.integer?, b.integer? with
  | some m, some n => m ≤ n
  | some _, none => match b with
    | float (.infinite negative) => !negative
    | _ => inDoubles a b
  | none, some _ => match a with
    | float (.infinite negative) => negative
    | _ => inDoubles a b
  | none, none => inDoubles a b
where
  inDoubles (a b : Value) : Bool := match a.number?, b.number? with
    | some x, some y => x.le y
    | _, _ => false

def scalarLe : Value → Value → Bool
  | text s, text t => s ≤ t
  | bytes bs, bytes bs' => !bs'.lex bs (· < ·)
  | date d, date d' => d.le d'
  | moment m, moment m' => m.le m'
  | v, w => numberLe v w

mutual

/-- The order of two values that have one.  Of two tuples the items decide that differ first, or
else the lengths. -/
def le : Value → Value → Bool
  | tuple items, tuple items' => leItems items items'
  | v, w => scalarLe v w

def leItems : List Value → List Value → Bool
  | [], _ => true
  | _ :: _, [] => false
  | v :: vs, w :: ws => if v.sameKey w then leItems vs ws else le v w

end

/-- What keeps some values from being sorted, if two of them have no common order. -/
def anyClash? : List Value → Option (Kind × Kind)
  | [] => none
  | v :: vs => (vs.findSome? (clash? v)).or (anyClash? vs)

mutual

/-- Whether a value is what is no number, or a tuple with that somewhere in it. -/
def holdsNaN : Value → Bool
  | float .nan => true
  | tuple items => anyHoldsNaN items
  | _ => false

def anyHoldsNaN : List Value → Bool
  | [] => false
  | v :: vs => holdsNaN v || anyHoldsNaN vs

end

/-- Whether a value takes its place among others however they are listed.  A tuple that holds what
is no number is neither below nor above other tuples; listed between two of them, it can keep these
from being compared. -/
def steady : Value → Bool
  | tuple items => !anyHoldsNaN items
  | _ => true

/-- Lists the distinct values in increasing order, or tells two kinds that have no common order.
Values that are not steady count as having none if any two of them have none. -/
def sorted (vs : List Value) : Except (Kind × Kind) (List Value) :=
  match texts? vs with
  | some names => .ok ((NameSet.ofList names).names.map text)
  | none =>
    let vs := distinct vs
    match anyClash? vs with
    | some clash => .error clash
    | none => .ok (vs.mergeSort le)

end CharacterSheet.Value
