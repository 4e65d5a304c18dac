import CharacterSheet.Delta
import CharacterSheet.Number.Integer

/-!
# Shapes of tokens

A data code is a list of tokens between colons, such as `SSA=1`, `WT3=2`, `M1=-3` or `CF[SSB=1]`.
A rule recognises the broad shape of a token: which letters stand where, and where its number is.
Whether the letters stand for anything is looked up later, so a well-formed token with an unknown
letter has a shape.  No token has two shapes, and no piece of a gate token is a gate token itself.
-/

namespace CharacterSheet.DataCode

open Integer (isDigit)

/-- A signed number as it is written. -/
structure Numeral where
  negative : Bool
  digits : List Char
  deriving DecidableEq, Repr

/-- What a skill token adds: a number, or a step of the tier. -/
inductive Amount where
  | number (n : Numeral)
  | stepUp
  | stepDown
  deriving DecidableEq, Repr

/-- The skills that have a value, a talent and a tier of their own. -/
inductive Branch where
  | weapon | magic | crafting
  deriving DecidableEq, Repr

inductive Shape where
  | basic (talent : Bool) (letter : Char) (amount : Amount)
  | special (branch : Branch) (talent : Bool) (letter : Char) (amount : Amount)
  | mitigation (letter : Char) (n : Numeral)
  | auto (letter : Char) (n : Numeral)
  | movement (letter : Char) (n : Numeral)
  | immunity (letter : Char)
  | flag (letter : Char)
  | talentPoints
  | trait (letter : Char) (payload : Option (List Char))
  | ability (kind : AbilityKind) (daily magical : Bool) (energy : Numeral)
  deriving DecidableEq, Repr

/-- A gate token: the letter of the gate and the text between its brackets. -/
structure GateShape where
  letter : Char
  body : List Char
  deriving DecidableEq, Repr

def isUpper (c : Char) : Bool := 'A' ≤ c && c ≤ 'Z'

def isCodeLetter (c : Char) : Bool := isUpper c || isDigit c

def digits? (cs : List Char) : Option (List Char) :=
  if !cs.isEmpty && cs.all isDigit then some cs else none

def numeral? : List Char → Option Numeral
  | '-' :: cs => (digits? cs).map (⟨true, ·⟩)
  | cs => (digits? cs).map (⟨false, ·⟩)

def amount? : List Char → Option Amount
  | ['X'] => some .stepUp
  | ['Y'] => some .stepDown
  | cs => (numeral? cs).map .number

/-- `S` marks a value, `T` a talent. -/
def talentMark? : Char → Option Bool
  | 'S' => some false
  | 'T' => some true
  | _ => none

/-- A head letter, a mark, a letter, an equals sign and an amount. -/
def skillToken? (head : Char) : List Char → Option (Bool × Char × Amount)
  | h :: mark :: letter :: '=' :: rest =>
    if h = head && isCodeLetter letter then do
      let talent ← talentMark? mark
      let amount ← amount? rest
      some (talent, letter, amount)
    else none
  | _ => none

/-- A head letter, a letter, an equals sign and a number. -/
def numberToken? (head : Char) : List Char → Option (Char × Numeral)
  | h :: letter :: '=' :: rest =>
    if h = head && isCodeLetter letter then (numeral? rest).map (letter, ·) else none
  | _ => none

def basicRule (cs : List Char) : Option Shape :=
  (skillToken? 'S' cs).map fun t ↦ .basic t.1 t.2.1 t.2.2

def branchHead : Branch → Char
  | .weapon => 'W'
  | .magic => 'Y'
  | .crafting => 'C'

def specialRule (branch : Branch) (cs : List Char) : Option Shape :=
  (skillToken? (branchHead branch) cs).map fun t ↦ .special branch t.1 t.2.1 t.2.2

def mitigationRule (cs : List Char) : Option Shape :=
  (numberToken? 'M' cs).map fun t ↦ .mitigation t.1 t.2

def autoRule (cs : List Char) : Option Shape :=
  (numberToken? 'A' cs).map fun t ↦ .auto t.1 t.2

def movementRule (cs : List Char) : Option Shape :=
  (numberToken? 'K' cs).map fun t ↦ .movement t.1 t.2

def immunityRule : List Char → Option Shape
  | ['I', letter, '=', '1'] => if isUpper letter then some (.immunity letter) else none
  | _ => none

def flagRule : List Char → Option Shape
  | ['F', letter] => if isUpper letter then some (.flag letter) else none
  | _ => none

def talentPointsRule : List Char → Option Shape
  | ['T', 'P'] => some .talentPoints
  | 'T' :: 'P' :: '=' :: rest => (digits? rest).map fun _ ↦ .talentPoints
  | _ => none

/-- A payload is not empty and stays on one line. -/
def traitRule : List Char → Option Shape
  | ['T', letter] => if isUpper letter then some (.trait letter none) else none
  | 'T' :: letter :: '=' :: payload =>
    if isUpper letter && !payload.isEmpty && !payload.contains '\n' then
      some (.trait letter (some payload))
    else none
  | _ => none

def abilityKind? : Char → Option AbilityKind
  | 'X' => some .action
  | 'Z' => some .reaction
  | _ => none

def dailyMark? : Char → Option Bool
  | 'D' => some true
  | 'I' => some false
  | _ => none

def magicalMark? : Char → Option Bool
  | 'M' => some true
  | 'N' => some false
  | _ => none

def abilityRule : List Char → Option Shape
  | kind :: daily :: magical :: 'E' :: '=' :: rest => do
    let kind ← abilityKind? kind
    let daily ← dailyMark? daily
    let magical ← magicalMark? magical
    let energy ← digits? rest
    some (.ability kind daily magical ⟨false, energy⟩)
  | _ => none

/-- The rules, each for tokens that no other rule before it takes. -/
def rules : List (List Char → Option Shape) :=
  [basicRule, specialRule .weapon, specialRule .magic, specialRule .crafting, mitigationRule,
    autoRule, movementRule, immunityRule, flagRule, talentPointsRule, traitRule, abilityRule]

/-- The shape of a token that is not a gate token. -/
def Shape.ofToken? (cs : List Char) : Option Shape := rules.findSome? fun rule ↦ rule cs

/-- The body of a gate token is not empty and has no closing bracket. -/
def GateShape.ofToken? : List Char → Option GateShape
  | 'C' :: letter :: '[' :: rest =>
    match rest.reverse with
    | ']' :: body =>
      if isUpper letter && !body.isEmpty && !body.contains ']' then
        some ⟨letter, body.reverse⟩
      else none
    | _ => none
  | _ => none

end CharacterSheet.DataCode
