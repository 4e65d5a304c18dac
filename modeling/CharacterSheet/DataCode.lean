import CharacterSheet.DataCode.Contribution
import CharacterSheet.Event

/-!
# Reading data codes

A code is cut at its colons; each trimmed, non-empty token is read on its own and what it
contributes is added to a delta.  A token that cannot be read is complained about and skipped.  A
number that cannot be converted ends the reading; the complaints up to there stand.
-/

namespace CharacterSheet.DataCode

/-- A token or comma piece that is skipped, with the reason. -/
structure Complaint where
  token : String
  fault : Fault
  deriving DecidableEq, Repr

/-- What comes of reading one token, or of a list of them. -/
structure Reading (α : Type) where
  complaints : List Complaint
  result : Except SourceError α

namespace Reading

variable {α β : Type}

def done (a : α) : Reading α := ⟨[], .ok a⟩

/-- Goes on with the result, if there is one; complaints come in order. -/
def andThen (r : Reading α) (f : α → Reading β) : Reading β :=
  match r.result with
  | .error e => ⟨r.complaints, .error e⟩
  | .ok a => ⟨r.complaints ++ (f a).complaints, (f a).result⟩

def map (f : α → β) (r : Reading α) : Reading β := ⟨r.complaints, r.result.map f⟩

@[simp] theorem done_andThen (a : α) (f : α → Reading β) : (done a).andThen f = f a := by
  simp [done, andThen]

theorem andThen_assoc {γ : Type} (r : Reading α) (f : α → Reading β) (g : β → Reading γ) :
    (r.andThen f).andThen g = r.andThen fun a ↦ (f a).andThen g := by
  unfold andThen
  cases hr : r.result with
  | error e => simp
  | ok a =>
    cases hf : (f a).result with
    | error e => simp [hf]
    | ok b => simp [hf, List.append_assoc]

end Reading

def tokens (code : List Char) : List (List Char) := Text.pieces ':' code

theorem tokens_append (as bs : List Char) :
    tokens (as ++ ':' :: bs) = tokens as ++ tokens bs :=
  Text.pieces_append ':' as bs

/-- A token at fault contributes nothing. -/
def complain (token : List Char) (fault : Fault) : Reading Contribution :=
  ⟨[⟨String.ofList token, fault⟩], .ok .nothing⟩

/-- Reads a token or a comma piece that is not a gate token. -/
def readSimple (token : List Char) : Reading Contribution :=
  match Shape.ofToken? token with
  | none => complain token .noRule
  | some shape => match shape.meaning with
    | .ok c => .done c
    | .error (.fault f) => complain token f
    | .error (.error e) => ⟨[], .error e⟩

/-- The effects that a piece files under its gate: a zero files nothing, and anything but a basic
skill or a mitigation is at fault unless it has no effect of its own. -/
def gatedEffects (gate : Gate) (piece : List Char) : Contribution → Reading (List GatedEffect)
  | .skill name n => .done (if n = 0 then [] else [⟨.skill, name, n⟩])
  | .mitigation name n => .done (if n = 0 then [] else [⟨.mitigation, name, n⟩])
  | c =>
    if (Delta.empty.add c).isEmpty then .done []
    else ⟨[⟨String.ofList piece, .notGatable gate⟩], .ok []⟩

def readPiece (gate : Gate) (piece : List Char) : Reading (List GatedEffect) :=
  (readSimple piece).andThen (gatedEffects gate piece)

def readPieces (gate : Gate) : List (List Char) → Reading (List GatedEffect)
  | [] => .done []
  | p :: ps => (readPiece gate p).andThen fun es ↦ (readPieces gate ps).map (es ++ ·)

def readGate (token : List Char) (shape : GateShape) : Reading Contribution :=
  match Gate.letters.find? shape.letter with
  | none => complain token (.unknownGate shape.letter)
  | some gate => (readPieces gate (Text.pieces ',' shape.body)).map (.gated gate)

def readToken (token : List Char) : Reading Contribution :=
  match GateShape.ofToken? token with
  | some shape => readGate token shape
  | none => readSimple token

def readTokens (d : Delta) : List (List Char) → Reading Delta
  | [] => .done d
  | t :: ts => (readToken t).andThen fun c ↦ readTokens (d.add c) ts

theorem readTokens_append (d : Delta) (ts us : List (List Char)) :
    readTokens d (ts ++ us) = (readTokens d ts).andThen fun d' ↦ readTokens d' us := by
  induction ts generalizing d with
  | nil => simp [readTokens]
  | cons t ts ih => simp [readTokens, ih, Reading.andThen_assoc]

def read (code : String) : Reading Delta := readTokens .empty (tokens code.toList)

/-- Reads a field that should hold a data code; nothing is the empty code. -/
def readValue : Value → Reading Delta
  | .null => .done .empty
  | .text code => read code
  | v => ⟨[], .error (.codeNotText v.kind)⟩

def Complaint.diagnostic (source : Option String) (c : Complaint) : Diagnostic :=
  ⟨.unrecognizedToken, c.fault.message, some c.token, source⟩

def Reading.diagnostics {α : Type} (source : Option String) (r : Reading α) : List Diagnostic :=
  r.complaints.map (Complaint.diagnostic source)

/-! ## Checking codes -/

/-- The outcome of checking a code for what would be skipped. -/
structure Verdict where
  isValid : Bool
  errors : List String
  deriving DecidableEq, Repr

def Complaint.error (c : Complaint) : String :=
  "Invalid effect: " ++ c.token ++ " (" ++ c.fault.message ++ ")"

/-- Checks a code.  A value that is no code at all is invalid; an integer that cannot be converted
leaves the check without a verdict. -/
def check (v : Value) : Except SourceError Verdict :=
  let r := readValue v
  match r.result with
  | .ok _ => .ok ⟨r.complaints.isEmpty, r.complaints.map Complaint.error⟩
  | .error (.codeNotText kind) => .ok ⟨false, [(SourceError.codeNotText kind).message]⟩
  | .error e => .error e

/-- What is recorded when a code is checked. -/
def checkEvents (v : Value) : List Event :=
  match v, (readValue v).result with
  | .text code, .ok _ =>
    let errors := (readValue v).complaints.length
    if errors = 0 then [] else [.codeInvalid code errors]
  | _, _ => []

end CharacterSheet.DataCode
