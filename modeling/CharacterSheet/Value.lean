import CharacterSheet.Calendar
import CharacterSheet.Number.Binary64
import CharacterSheet.Text.Quoted

/-!
# Unchecked values

What a document holds before anyone has checked it: scalars, tuples, lists, sets, and maps with keys
of any kind that can be one.  A value can be asked for its kind, its truth and its text, and two
values for whether they are the same key.
-/

namespace CharacterSheet

inductive Value where
  | null
  | bool (b : Bool)
  | int (n : Int)
  | float (x : Binary64)
  | text (s : String)
  | bytes (bs : List Nat)
  | date (d : Date)
  | moment (m : Moment)
  | tuple (items : List Value)
  | list (items : List Value)
  | set (members : List Value)
  | map (entries : List (Value × Value))
  /-- A collection at a place inside itself. -/
  | again (v : Value)
  deriving Repr, BEq, Inhabited

namespace Value

/-- The kinds of value, as messages name them. -/
inductive Kind where
  | null | bool | int | float | text | bytes | date | moment | tuple | list | set | map
  deriving DecidableEq, Repr

def Kind.name : Kind → String
  | .null => "NoneType"
  | .bool => "bool"
  | .int => "int"
  | .float => "float"
  | .text => "str"
  | .bytes => "bytes"
  | .date => "date"
  | .moment => "datetime"
  | .tuple => "tuple"
  | .list => "list"
  | .set => "set"
  | .map => "dict"

/-- The name of a kind, with the library that it comes from. -/
def Kind.fullName : Kind → String
  | .date => "datetime.date"
  | .moment => "datetime.datetime"
  | k => k.name

def kind : Value → Kind
  | null => .null
  | bool _ => .bool
  | int _ => .int
  | float _ => .float
  | text _ => .text
  | bytes _ => .bytes
  | date _ => .date
  | moment _ => .moment
  | tuple _ => .tuple
  | list _ => .list
  | set _ => .set
  | map _ => .map
  | again v => v.kind

def alone : Value → Value
  | again v => v
  | v => v

/-- Zero, nothing and the empty collections count as false. -/
def truthy : Value → Bool
  | null => false
  | bool b => b
  | int n => n != 0
  | float x => !x.isZero
  | text s => s != ""
  | bytes bs => !bs.isEmpty
  | tuple items => !items.isEmpty
  | list items => !items.isEmpty
  | set members => !members.isEmpty
  | map entries => !entries.isEmpty
  | _ => true

/-- What stands for a collection inside itself. -/
def ellipsis : Kind → String
  | .list => "[...]"
  | .set => "set(...)"
  | _ => "\x7b...\x7d"

mutual

/-- The text of a value inside another one: texts are quoted. -/
def literal : Value → String
  | null => "None"
  | bool b => if b then "True" else "False"
  | int n => toString n
  | float x => x.text
  | text s => Text.quoted s
  | bytes bs => Text.quotedBytes bs
  | date d => d.literal
  | moment m => m.literal
  | tuple items =>
    "(" ++ ", ".intercalate (literals items) ++ (if items.length = 1 then ",)" else ")")
  | list items => "[" ++ ", ".intercalate (literals items) ++ "]"
  | set members =>
    if members.isEmpty then "set()" else "\x7b" ++ ", ".intercalate (literals members) ++ "\x7d"
  | map entries => "\x7b" ++ ", ".intercalate (literalPairs entries) ++ "\x7d"
  | again v => ellipsis v.kind

def literals : List Value → List String
  | [] => []
  | v :: vs => literal v :: literals vs

def literalPairs : List (Value × Value) → List String
  | [] => []
  | e :: es => (literal e.1 ++ ": " ++ literal e.2) :: literalPairs es

end

/-- The text of a value inside a message: a text stands for itself. -/
def display (v : Value) : String :=
  match v.alone with
  | text s => s
  | date d => d.text
  | moment m => m.text
  | v => v.literal

/-- The number that a scalar stands for; truth values count as zero and one. -/
def number? : Value → Option Binary64
  | bool b => some (.ofInt (if b then 1 else 0))
  | int n => some (.ofInt n)
  | float x => some x
  | _ => none

/-- The integer that a scalar is equal to. -/
def integer? : Value → Option Int
  | bool b => some (if b then 1 else 0)
  | int n => some n
  | float x => x.toInt?
  | _ => none

/-- Whether two values other than tuples are the same key of a map: numbers are compared by what
they stand for, and what is no number is the same as itself.  Collections are never the same. -/
def sameScalar (a b : Value) : Bool :=
  match a, b with
  | null, null => true
  | text s, text t => s == t
  | bytes bs, bytes bs' => bs == bs'
  | date d, date d' => d == d'
  | moment m, moment m' => m.same m'
  | float .nan, float .nan => true
  | float x, float y => x.equal y
  | _, _ => match a.integer?, b.integer? with
    | some m, some n => m == n
    | _, _ => false

mutual

/-- Whether two values are the same key of a map.  Tuples are compared item by item. -/
def sameKey : Value → Value → Bool
  | tuple items, tuple items' => sameKeys items items'
  | a, b => a.sameScalar b

def sameKeys : List Value → List Value → Bool
  | [], [] => true
  | a :: as, b :: bs => sameKey a b && sameKeys as bs
  | _, _ => false

end

/-- A text is the same key as itself only. -/
@[simp] theorem sameKey_text_iff {v : Value} {s : String} :
    v.sameKey (text s) = true ↔ v = text s := by
  cases v <;> simp [sameKey, sameScalar, integer?]

@[simp] theorem text_sameKey_iff {v : Value} {s : String} :
    (text s).sameKey v = true ↔ v = text s := by
  rw [eq_comm (a := v)]
  cases v <;> simp [sameKey, sameScalar, integer?]

mutual

/-- The kind of the collection that keeps a value from being a key of a map or a member of a set.
Scalars can be either, and so can tuples whose items can. -/
def unhashable? : Value → Option Kind
  | list _ => some .list
  | set _ => some .set
  | map _ => some .map
  | tuple items => firstUnhashable? items
  | again v => unhashable? v
  | _ => none

def firstUnhashable? : List Value → Option Kind
  | [] => none
  | v :: vs => (unhashable? v).or (firstUnhashable? vs)

end

theorem firstUnhashable?_texts (names : List String) :
    firstUnhashable? (names.map text) = none := by
  induction names with
  | nil => rfl
  | cons name names ih => exact ih

/-- What a map holds under a text. -/
def field? (entries : List (Value × Value)) (name : String) : Option Value :=
  (entries.find? fun e ↦ e.1.sameKey (text name)).map Prod.snd

/-- Stores a value under a key: in place if the key is there, else at the end. -/
def putField (key value : Value) : List (Value × Value) → List (Value × Value)
  | [] => [(key, value)]
  | e :: es => if e.1.sameKey key then (e.1, value) :: es else e :: putField key value es

def isText : Value → Bool
  | text _ => true
  | _ => false

end Value

end CharacterSheet
