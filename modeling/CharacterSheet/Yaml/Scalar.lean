import CharacterSheet.Number.Decimal
import CharacterSheet.Text.Base64
import CharacterSheet.Text.Lower
import CharacterSheet.Yaml.Fault
import CharacterSheet.Yaml.Tag

/-!
# Values of scalars

The text of a scalar is converted as its tag tells.  Underscores inside numbers do not count.
-/

namespace CharacterSheet.Yaml

/-- A scalar that its type cannot take. -/
def refuseScalar {α : Type} (f : ScalarFault) : Except Fault α := .error (.crash (.scalar f))

/-! ## Numbers -/

/-- The integer that a part of a scalar writes in a base. -/
def integerIn (base : Nat) (cs : List Char) : Except Fault Int :=
  (Integer.ofText (String.ofList cs) base).mapError fun e ↦ .crash (.scalar (.integer e))

/-- Groups of base sixty, the last one weighing one. -/
def sexagesimal (groups : List Int) : Int := groups.foldl (fun n g ↦ 60 * n + g) 0

/-- The size of an integer, in the base that its first characters tell. -/
def integerSize (body : List Char) : Except Fault Int :=
  match body with
  | [] => refuseScalar .emptyNumber
  | ['0'] => .ok 0
  | '0' :: 'b' :: ds => integerIn 2 ds
  | '0' :: 'x' :: ds => integerIn 16 ds
  | '0' :: _ => integerIn 8 body
  | _ =>
    if body.contains ':' then do
      let groups ← (Text.splitAt ':' body).mapM (integerIn 10)
      return sexagesimal groups
    else integerIn 10 body

def integerValue (s : String) : Except Fault Int := do
  let (negative, body) := Integer.splitSign (s.toList.filter (· != '_'))
  let n ← integerSize body
  return if negative then -n else n

def doubleOf (cs : List Char) : Except Fault Binary64 :=
  match Binary64.ofText? cs with
  | some x => .ok x
  | none => refuseScalar (.notAFloat (Text.quoted (String.ofList cs)))

/-- Adds up groups of base sixty, the last one coming first; `weight` is what the next one counts
for. -/
def sexagesimalSum (sum : Binary64) (weight : Int) : List Binary64 → Except Fault Binary64
  | [] => .ok sum
  | g :: gs =>
    match Binary64.ofInt weight with
    | .finite n m e => sexagesimalSum (sum.add (g.mul (.finite n m e))) (60 * weight) gs
    | _ => refuseScalar .groupTooLarge

def negateFloat (x : Binary64) : Binary64 := Binary64.mul (.ofInt (-1)) x

def floatSize (body : List Char) : Except Fault Binary64 :=
  if body = ".inf".toList then .ok (.infinite false)
  else if body = ".nan".toList then .ok .nan
  else if body.contains ':' then do
    let groups ← (Text.splitAt ':' body).mapM doubleOf
    sexagesimalSum (.ofInt 0) 1 groups.reverse
  else doubleOf body

def floatValue (s : String) : Except Fault Binary64 := do
  let cs := Text.lowerFrom none (s.toList.filter (· != '_'))
  if cs.isEmpty then refuseScalar .emptyNumber
  let (negative, body) := Integer.splitSign cs
  let x ← floatSize body
  return if negative then negateFloat x else x

/-! ## Dates and moments -/

/-- What the calendar makes of a scalar. -/
def liftCalendar {α : Type} (r : Except CalendarFault α) : Except Fault α :=
  r.mapError fun f ↦ .crash (.scalar (.calendar f))

def Zone.offset (z : Zone) : Int :=
  Integer.withSign z.behind (60 * Integer.ofDigits z.hours + Integer.ofDigits z.minutes)

/-- The first six digits of a fraction of a second. -/
def microseconds (fraction : List Char) : Nat :=
  let ds := fraction.take 6
  Integer.ofDigits (ds ++ List.replicate (6 - ds.length) '0')

def Timestamp.date (t : Timestamp) : Except Fault Date :=
  liftCalendar <|
    Date.ofNumbers (Integer.ofDigits t.year) (Integer.ofDigits t.month) (Integer.ofDigits t.day)

/-- A date, or a moment if there is a time of day.  The zone is looked at first. -/
def Timestamp.value (t : Timestamp) : Except Fault Value :=
  match t.time with
  | none => t.date.map .date
  | some time => do
    let offset := time.zone.map fun z ↦ (z.map Zone.offset).getD 0
    liftCalendar (Moment.checkOffset offset)
    let date ← t.date
    let hour := Integer.ofDigits time.hour
    let minute := Integer.ofDigits time.minute
    let second := Integer.ofDigits time.second
    liftCalendar (Moment.checkTime hour minute second)
    return .moment
      { date, hour, minute, second, offset, microsecond := microseconds time.fraction }

def timestampValue (s : String) : Except Fault Value :=
  match timestamp? (withoutLineFeed s).toList with
  | none => refuseScalar .notAMoment
  | some t => t.value

/-! ## Scalars of all types -/

def truthValue (s : String) : Except Fault Bool :=
  let word := Text.lower s
  match truthWords.lookup word with
  | some b => .ok b
  | none => refuseScalar (.notATruth (Text.quoted word))

/-- The bytes that a text in ASCII writes. -/
def binaryValue (s : String) : Except Fault (List Nat) :=
  let cs := s.toList
  match Text.Base64.decode? cs with
  | some bs => if cs.all fun c ↦ c.toNat < 0x80 then .ok bs else .error .notADocument
  | none => .error .notADocument

def scalarValue (tag : Tag) (s : String) : Except Fault Value :=
  match tag with
  | .null => .ok .null
  | .text => .ok (.text s)
  | .bool => (truthValue s).map .bool
  | .int => (integerValue s).map .int
  | .float => (floatValue s).map .float
  | .timestamp => timestampValue s
  | .binary => (binaryValue s).map .bytes
  | _ => .error .notADocument

end CharacterSheet.Yaml
