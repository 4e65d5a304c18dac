import CharacterSheet.DataCode.Shape

/-!
# Contributions of tokens

The letters of a token's shape are looked up in the schema.  A token then either contributes to
one entry of a delta, or is at fault, or holds a number that cannot be converted.
-/

namespace CharacterSheet.DataCode

/-- What a token adds to a delta. -/
inductive Contribution where
  | nothing
  | attribute (name : String) (value : Int)
  | skill (name : String) (value : Int)
  | tier (name : String) (steps : Int)
  | special (branch : Branch) (name : String) (gain : SkillGain)
  | mitigation (name : String) (value : Int)
  | resource (name : String) (value : Int)
  | weaponRange (name : String) (value : Int)
  | dualWield (tier : Int)
  | movement (name : String) (value : Int)
  | immunity (name : String)
  | flag (name : String)
  | trait (t : Trait)
  | ability (a : Ability)
  | gated (gate : Gate) (effects : List GatedEffect)
  deriving DecidableEq, Repr

/-- Why a token or a comma piece is skipped. -/
inductive Fault where
  | noRule
  | basicTalent
  | attributeTier
  | talentTier
  | unknownLetter (category : String) (letter : Char)
  | unknownGate (letter : Char)
  | dualWieldTier (value : Int)
  /-- Only basic skills and mitigations can be gated. -/
  | notGatable (gate : Gate)
  deriving DecidableEq, Repr

def Fault.message : Fault → String
  | noRule => "token matches no data-code rule"
  | basicTalent => "basic skill and attribute talents are not supported"
  | attributeTier => "attributes do not take tier symbols"
  | talentTier => "talents do not take tier symbols"
  | unknownLetter category letter =>
    "unknown " ++ category ++ " code '" ++ String.singleton letter ++ "'"
  | unknownGate letter => "unknown conditional gate '" ++ String.singleton letter ++ "'"
  | dualWieldTier value => "dual wield tier must be 1 or 2, got " ++ toString value
  | notGatable gate => "effect cannot be gated by '" ++ gate.name ++ "'"

/-- What stops a token: a fault costs the token, an error the whole code. -/
inductive Refusal where
  | fault (f : Fault)
  | error (e : SourceError)
  deriving DecidableEq, Repr

/-- The number of a numeral, unless it is too long. -/
def Numeral.value (n : Numeral) : Except Refusal Int :=
  (Integer.convert n.negative n.digits).mapError .error

/-- The name under a letter, or a fault that tells the category. -/
def lookUp {α : Type} (letters : Letters α) (category : String) (letter : Char) :
    Except Refusal α :=
  match letters.find? letter with
  | some a => .ok a
  | none => .error (.fault (.unknownLetter category letter))

def basicMeaning (talent : Bool) (letter : Char) (amount : Amount) :
    Except Refusal Contribution :=
  if talent then .error (.fault .basicTalent)
  else match Schema.attributeLetters.find? letter, amount with
    | some name, .number n => return .attribute name (← n.value)
    | some _, _ => .error (.fault .attributeTier)
    | none, amount => do
      let name ← lookUp Schema.skillLetters "basic skill" letter
      match amount with
      | .stepUp => return .tier name 1
      | .stepDown => return .tier name (-1)
      | .number n => return .skill name (← n.value)

def Branch.letters : Branch → Letters String
  | weapon => Schema.weaponLetters
  | magic => Schema.magicLetters
  | crafting => Schema.craftingLetters

def Branch.category : Branch → String
  | weapon => "weapon skill"
  | magic => "magic skill"
  | crafting => "crafting skill"

def specialMeaning (branch : Branch) (talent : Bool) (letter : Char) (amount : Amount) :
    Except Refusal Contribution := do
  let name ← lookUp branch.letters branch.category letter
  match talent, amount with
  | true, .number n => return .special branch name { talent := ← n.value }
  | true, _ => .error (.fault .talentTier)
  | false, .number n => return .special branch name { skill := ← n.value }
  | false, .stepUp => return .special branch name { tier := 1 }
  | false, .stepDown => return .special branch name { tier := -1 }

/-- The number of an auto token is converted before its letter is looked up. -/
def autoMeaning (letter : Char) (n : Numeral) : Except Refusal Contribution := do
  let value ← n.value
  match Schema.resourceLetters.find? letter, Schema.weaponRangeLetters.find? letter with
  | some name, _ => return .resource name value
  | none, some name => return .weaponRange name value
  | none, none =>
    if letter = 'Z' then
      if value ∈ Schema.dualWieldTiers then return .dualWield value
      else .error (.fault (.dualWieldTier value))
    else .error (.fault (.unknownLetter "auto" letter))

def Shape.meaning : Shape → Except Refusal Contribution
  | basic talent letter amount => basicMeaning talent letter amount
  | special branch talent letter amount => specialMeaning branch talent letter amount
  | mitigation letter n => do
    let name ← lookUp Schema.mitigationLetters "mitigation" letter
    return .mitigation name (← n.value)
  | auto letter n => autoMeaning letter n
  | movement letter n => do
    let name ← lookUp Schema.movementLetters "movement" letter
    return .movement name (← n.value)
  | immunity letter => return .immunity (← lookUp Schema.immunityLetters "immunity" letter)
  | flag letter => return .flag (← lookUp Schema.flagLetters "flag" letter)
  | talentPoints => .ok .nothing
  | trait letter payload => do
    let kind ← lookUp TraitKind.letters "trait" letter
    return .trait ⟨kind, String.ofList ['T', letter], payload.map String.ofList⟩
  | ability kind daily magical energy =>
    return .ability { kind, daily, magical, energy := ← energy.value }

end CharacterSheet.DataCode

namespace CharacterSheet

open DataCode in
/-- Adds one contribution; every other entry stays as it is. -/
def Delta.add (d : Delta) : Contribution → Delta
  | .nothing => d
  | .attribute name n => { d with attributes := d.attributes.update name 0 (· + n) }
  | .skill name n => { d with skills := d.skills.update name 0 (· + n) }
  | .tier name n => { d with tiers := d.tiers.update name 0 (· + n) }
  | .special .weapon name g => { d with weapon := d.weapon.update name .zero (·.add g) }
  | .special .magic name g => { d with magic := d.magic.update name .zero (·.add g) }
  | .special .crafting name g => { d with crafting := d.crafting.update name .zero (·.add g) }
  | .mitigation name n => { d with mitigation := d.mitigation.update name 0 (· + n) }
  | .resource name n => { d with resources := d.resources.update name 0 (· + n) }
  | .weaponRange name n => { d with weaponRanges := d.weaponRanges.update name 0 (· + n) }
  | .dualWield n => { d with features := d.features.update Schema.dualWieldTier 0 (max · n) }
  | .movement name n => { d with movement := d.movement.update name 0 (· + n) }
  | .immunity name => { d with immunities := d.immunities.insert name }
  | .flag name => { d with flags := d.flags.set name true }
  | .trait t => d.addTrait t
  | .ability a => { d with abilities := d.abilities ++ [a] }
  | .gated gate effects => { d with gated := d.gated.update gate.name [] (· ++ effects) }

end CharacterSheet
