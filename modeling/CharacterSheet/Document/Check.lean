import CharacterSheet.Document.Issue
import CharacterSheet.Number.Integer
import CharacterSheet.Table
import CharacterSheet.Text.Utf8

/-!
# Checking documents

A check turns an unchecked value into a typed one or lists everything that is wrong with it.  Checks
are combined side by side, so that one mistake does not hide another: issues come field by field, in
the order in which the fields are declared.
-/

namespace CharacterSheet

/-- A typed value, or the issues that stand in its way. -/
structure Check (α : Type) where
  result : Except (List Issue) α

namespace Check

variable {α β γ : Type}

def pass (a : α) : Check α := ⟨.ok a⟩

def fail (kind : IssueKind) : Check α := ⟨.error [⟨[], kind⟩]⟩

/-- Puts two checks side by side; the issues of the first come first. -/
def both (f : α → β → γ) (a : Check α) (b : Check β) : Check γ :=
  match a.result, b.result with
  | .ok a, .ok b => ⟨.ok (f a b)⟩
  | .error e, .ok _ => ⟨.error e⟩
  | .ok _, .error e => ⟨.error e⟩
  | .error e, .error e' => ⟨.error (e ++ e')⟩

instance : Applicative Check where
  pure := pass
  seq f a := both (fun f a ↦ f a) f (a ())

/-- Issues of a part, seen from the whole. -/
def under (step : Step) (c : Check α) : Check α :=
  ⟨c.result.mapError fun issues ↦ issues.map fun i ↦ { i with path := step :: i.path }⟩

def ensure (test : α → Bool) (kind : IssueKind) (c : Check α) : Check α :=
  match c.result with
  | .ok a => if test a then c else fail kind
  | .error _ => c

/-- Goes on with what a check lets pass. -/
def andThen (c : Check α) (f : α → Check β) : Check β :=
  match c.result with
  | .ok a => f a
  | .error e => ⟨.error e⟩

/-! ## Texts -/

def decoded (kind : IssueKind) (bs : List Nat) : Check String :=
  match Text.Utf8.decode bs with
  | .ok cs => pass (String.ofList cs)
  | .error _ => fail kind

/-- A text, which may also come as bytes. -/
def text : Value → Check String
  | .text s => pass s
  | .bytes bs => decoded .stringUnicode bs
  | _ => fail .stringType

/-- A text that is looked into: it must hold characters only. -/
def whole (s : String) : Check String :=
  if Text.isWhole s then pass s else fail .stringUnicode

/-! ## Scalars -/

/-- Drops the zeros at the start of a written integer, with underscores among them.  A minus sign
may come after them; a last zero stays, also the one before a point. -/
def withoutZeros? : List Char → Option (List Char)
  | '0' :: cs =>
    let zeros := cs.takeWhile fun c ↦ c = '0' || c = '_'
    match cs.drop zeros.length with
    | [] => some [(('0' :: zeros).getLast?).getD '0']
    | c :: rest =>
      if c = '.' then some ((('0' :: zeros).getLast?).getD '0' :: c :: rest)
      else if ('1' ≤ c && c ≤ '9') || c = '-' then some (c :: rest)
      else none
  | c :: cs => if ('1' ≤ c && c ≤ '9') || c = '-' then some (c :: cs) else none
  | [] => none

/-- Drops a point with zeros after it at the end of a written integer. -/
def withoutFraction (cs : List Char) : List Char :=
  match cs.span (· != '.') with
  | (whole, '.' :: zeros) => if !zeros.isEmpty && zeros.all (· = '0') then whole else cs
  | _ => cs

/-- Drops a plus sign; no other sign may follow it. -/
def withoutPlus? : List Char → Option (List Char)
  | '+' :: '-' :: _ => none
  | '+' :: cs => some cs
  | cs => some cs

/-- Drops single underscores that are neither at the start nor at the end. -/
def withoutUnderscores? (cs : List Char) : Option (List Char) :=
  let groups := Text.splitAt '_' cs
  if groups.all fun g ↦ !g.isEmpty then some groups.flatten else none

/-- The sign and the digits of a written integer: blanks around it, a sign, zeros in front of it,
single underscores, and zeros after a point do not count. -/
def digitsOfWritten? (s : String) : Option (Bool × List Char) := do
  let cs ← withoutPlus? (Text.trimBy Text.isSpace s.toList)
  let cs ← withoutZeros? cs
  let cs ← withoutUnderscores? (withoutFraction cs)
  let (negative, ds) := match cs with
    | '-' :: ds => (true, ds)
    | ds => (false, ds)
  if !ds.isEmpty && ds.all Integer.isDigit then some (negative, ds) else none

def wordBound : Int := 0x8000000000000000

def fitsWord (n : Int) : Bool := -wordBound ≤ n && n < wordBound

/-- An integer as a text.  It may be long only if it fits into a word. -/
def writtenInteger (s : String) : Check Int :=
  match digitsOfWritten? s with
  | none => fail .intParsing
  | some (negative, ds) =>
    let n := Integer.withSign negative (Integer.ofDigits ds)
    let length := ds.length + if negative then 1 else 0
    if fitsWord n || length ≤ SourceError.digitLimit then pass n else fail .intParsingSize

/-- An integer as a double, which has to be of less size than a word can hold. -/
def doubleInteger : Binary64 → Check Int
  | .finite negative m e => match (Binary64.finite negative m e).toInt? with
    | some n => if -wordBound < n ∧ n < wordBound then pass n else fail .intParsingSize
    | none => fail .intFromFloat
  | _ => fail .finiteNumber

def integer : Value → Check Int
  | .bool b => pass (if b then 1 else 0)
  | .int n => pass n
  | .float x => doubleInteger x
  | .text s => andThen (whole s) writtenInteger
  | .bytes bs => andThen (decoded .intParsing bs) writtenInteger
  | _ => fail .intType

def natural (v : Value) : Check Nat :=
  Int.toNat <$> ensure (fun n ↦ 0 ≤ n) .greaterThanEqual (integer v)

def truthWords : List (String × Bool) :=
  [("0", false), ("off", false), ("f", false), ("false", false), ("n", false), ("no", false),
    ("1", true), ("on", true), ("t", true), ("true", true), ("y", true), ("yes", true)]

def asciiLower (s : String) : String := String.ofList (s.toList.map Char.toLower)

def truthOfInt (n : Int) : Check Bool :=
  if n = 0 then pass false else if n = 1 then pass true else fail .boolParsing

def writtenTruth (s : String) : Check Bool :=
  match truthWords.lookup (asciiLower s) with
  | some b => pass b
  | none => fail .boolParsing

def truth : Value → Check Bool
  | .bool b => pass b
  | .int n => if fitsWord n then truthOfInt n else fail .boolType
  | .float x => match (doubleInteger x).result with
    | .ok n => truthOfInt n
    | .error _ => fail .boolType
  | .text s => andThen (whole s) writtenTruth
  | .bytes bs => andThen (decoded .boolParsing bs) writtenTruth
  | _ => fail .boolType

/-- One of some members, known by their names. -/
def member (all : List α) (name : α → String) (v : Value) : Check α :=
  let named (s : String) : Check α := match all.find? fun a ↦ name a == s with
    | some a => pass a
    | none => fail .notAMember
  match v with
  | .text s => andThen (whole s) named
  | .bytes bs => andThen (decoded .notAMember bs) named
  | _ => fail .notAMember

def optional (check : Value → Check α) : Value → Check (Option α)
  | .null => pass none
  | v => some <$> check v

/-! ## Collections -/

/-- Checks items one by one, the first of them at a position. -/
def items (check : Value → Check α) : Nat → List Value → Check (List α)
  | _, [] => pass []
  | n, v :: vs => List.cons <$> under (.index n) (check v) <*> items check (n + 1) vs

def listOf (check : Value → Check α) (v : Value) : Check (List α) :=
  match v.alone with
  | .list vs => items check 0 vs
  | .set vs => items check 0 vs
  | .tuple vs => items check 0 vs
  | _ => fail .listType

/-- A text in a path.  Each of the three bytes that half of a surrogate pair takes is replaced. -/
def pathText (s : String) : String :=
  String.ofList <| (Text.codePoints s.toList).flatMap fun n ↦
    if Text.isHalf n then List.replicate 3 '\ufffd' else Text.hold n

def keyStep : Value → Step
  | .text s => .name (pathText s)
  | .int n => if fitsWord n then .index n else .name (toString n)
  | .bool b => .index (if b then 1 else 0)
  | v => .name v.literal

/-- Checks entries one by one; keys have to be texts. -/
def entries (check : Value → Check α) : List (Value × Value) → Check (List (String × α))
  | [] => pass []
  | e :: es =>
    let key := under (keyStep e.1) (under (.name "[key]") (text e.1))
    let value := under (keyStep e.1) (check e.2)
    List.cons <$> (Prod.mk <$> key <*> value) <*> entries check es

def tableOf (check : Value → Check α) (v : Value) : Check (Table α) :=
  match v.alone with
  | .map es => Table.ofPairs <$> entries check es
  | _ => fail .mapType

/-! ## Records -/

def required (fields : List (Value × Value)) (name : String) (check : Value → Check α) : Check α :=
  under (.name name) <| match Value.field? fields name with
    | some v => check v
    | none => fail .missing

def defaulted (fields : List (Value × Value)) (name : String) (default : α)
    (check : Value → Check α) : Check α :=
  match Value.field? fields name with
  | some v => under (.name name) (check v)
  | none => pass default

def record (check : List (Value × Value) → Check α) (v : Value) : Check α :=
  match v.alone with
  | .map fields => check fields
  | _ => fail .modelType

/-- A field other than those named, or one whose name is no text. -/
def onlyField (names : List String) (key : Value) : Check Unit :=
  under (keyStep key) <| match key with
    | .text s => if names.contains s then pass () else fail .extraForbidden
    | _ => fail .invalidKey

/-- Refuses fields other than those named. -/
def onlyFields (names : List String) (fields : List (Value × Value)) : Check Unit :=
  fields.foldr (fun e rest ↦ both (fun _ _ ↦ ()) (onlyField names e.1) rest) (pass ())

/-- Whether the name of a field holds half of a surrogate pair. -/
def hasBrokenName (fields : List (Value × Value)) : Bool :=
  fields.any fun e ↦ match e.1 with
    | .text s => !Text.isWhole s
    | _ => false

/-- A record that has no fields but those named.  A name that is no proper text spoils the check of
all other fields. -/
def closedRecord (names : List String) (check : List (Value × Value) → Check α) :
    Value → Check α :=
  record fun fields ↦
    if hasBrokenName fields then fail .stringUnicode
    else
      let used := names.filter fun n ↦ (Value.field? fields n).isSome
      both (fun a _ ↦ a) (check fields) (onlyFields used fields)

end Check

end CharacterSheet
