import CharacterSheet.Failure
import CharacterSheet.State

/-!
# Pain and stress

A track adds up what injuries contribute, a bonus for a pool that runs low, and a modifier set by
hand.  How low a pool is, is the quotient of its current value and its maximum, rounded once to the
nearest double.
-/

namespace CharacterSheet

/-- Fractions of the maximum with their bonuses; the first that the pool does not exceed counts. -/
def thresholdBands : List (Nat × Nat × Int) := [(1, 4, 6), (1, 2, 3)]

/-- Calculated values with their penalty dice; the first that is reached counts. -/
def penaltyBands : List (Int × Int) := [(16, 2), (11, 2), (6, 1)]

/-- The quotient of an integer and a positive integer, as the nearest double. -/
def quotient (n : Int) (d : Nat) : Except Failure Binary64 :=
  match Binary64.ofRatio (n < 0) n.natAbs d with
  | .infinite _ => .error .quotientTooLarge
  | x => .ok x

/-- The bonus of the first band that a ratio lies in. -/
def bandBonus (ratio : Binary64) : Int :=
  match thresholdBands.find? fun b ↦ ratio.leRatio b.1 b.2.1 with
  | some b => b.2.2
  | none => 0

/-- The bonus of a pool that runs low.  A pool that is missing, whose current value is unset or
whose maximum is not positive gives none. -/
def lowPoolBonus (pool : Option Pool) : Except Failure Int :=
  match pool with
  | none => .ok 0
  | some p => match p.current with
    | none => .ok 0
    | some current =>
      if p.max ≤ 0 then .ok 0
      else (quotient (min current p.max) p.max.toNat).map bandBonus

def diceFor (calculated : Int) : Int :=
  match penaltyBands.find? fun b ↦ b.1 ≤ calculated with
  | some b => b.2
  | none => 0

/-- Derives a track anew from the total of its sources and a pool, keeping its modifier.  When the
quotient is too large only the total has been recorded. -/
def Track.update (t : Track) (total : Int) (pool : Option Pool) : Track × Option Failure :=
  match lowPoolBonus pool with
  | .error e => ({ t with sourceTotal := total }, some e)
  | .ok bonus =>
    let calculated := max 0 (total + bonus + t.modifier)
    ({ sourceTotal := total, thresholdBonus := bonus, modifier := t.modifier, calculated,
       penaltyDice := diceFor calculated }, none)

end CharacterSheet
