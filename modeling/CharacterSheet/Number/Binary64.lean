/-!
# Double-precision numbers

A double is a sign, a significand below `2 ^ 53` and a binary exponent, or an infinity, or no number
at all.  All arithmetic is exact arithmetic on naturals followed by one rounding to the nearest
double, ties going to the even significand.  The text of a double is the shortest decimal that
rounds back to it.
-/

namespace CharacterSheet

inductive Binary64 where
  | finite (negative : Bool) (significand : Nat) (exponent : Int)
  | infinite (negative : Bool)
  | nan
  deriving DecidableEq, Repr

namespace Binary64

/-- The power of a base, as long as it is whole: with the power for `-k` as the denominator, every
power is a fraction of two of these. -/
def wholePower (base : Nat) (k : Int) : Nat := base.pow k.toNat

/-- The least significand of full length, `2 ^ 52`. -/
def leastFull : Nat := 0x10000000000000

/-- The integer nearest to `num / den`, a tie going to the even one. -/
def roundHalfEven (num den : Nat) : Nat :=
  let q := num / den
  let r := num % den
  if 2 * r < den then q
  else if den < 2 * r then q + 1
  else if q % 2 = 0 then q else q + 1

/-- The largest `k` with `2 ^ k ≤ num / den`, for positive arguments. -/
def ratioLog2 (num den : Nat) : Int :=
  let k : Int := (num.log2 : Int) - den.log2
  if num * wholePower 2 (-k) < den * wholePower 2 k then k - 1 else k

/-- The exponent of the doubles around `num / den`. -/
def ratioExponent (num den : Nat) : Int := max (ratioLog2 num den - 52) (-1074)

/-- The double nearest to `num / den`. -/
def ofRatio (negative : Bool) (num den : Nat) : Binary64 :=
  if num = 0 then finite negative 0 (-1074)
  else
    let e := ratioExponent num den
    let m := roundHalfEven (num * wholePower 2 (-e)) (den * wholePower 2 e)
    let carried := m = 2 * leastFull
    let e := if carried then e + 1 else e
    let m := if carried then leastFull else m
    if 971 < e then infinite negative else finite negative m e

/-- Compares a double with the non-negative fraction `num / den`. -/
def leRatio (x : Binary64) (num den : Nat) : Bool :=
  match x with
  | finite negative m e =>
    negative || m = 0 || m * wholePower 2 e * den ≤ num * wholePower 2 (-e)
  | infinite negative => negative
  | nan => false

/-- The double nearest to `digits · 10 ^ exponent`. -/
def ofDecimal (negative : Bool) (digits : Nat) (exponent : Int) : Binary64 :=
  if digits = 0 then finite negative 0 (-1074)
  else if 400 < exponent then infinite negative
  else if exponent < -(400 + digits.log2 : Int) then finite negative 0 (-1074)
  else ofRatio negative (digits * wholePower 10 exponent) (wholePower 10 (-exponent))

def ofInt (n : Int) : Binary64 := ofRatio (n < 0) n.natAbs 1

def isZero : Binary64 → Bool
  | finite _ m _ => m = 0
  | _ => false

/-- The integer part, toward zero. -/
def truncate? : Binary64 → Option Int
  | finite negative m e =>
    let n : Nat := m * wholePower 2 e / wholePower 2 (-e)
    some (if negative then -(n : Int) else n)
  | _ => none

/-- The integer that a double is equal to. -/
def toInt? (x : Binary64) : Option Int :=
  match x with
  | finite _ m e => if m * wholePower 2 e % wholePower 2 (-e) = 0 then x.truncate? else none
  | _ => none

/-- Equality of the numbers that two doubles stand for. -/
def equal : Binary64 → Binary64 → Bool
  | finite n m e, finite n' m' e' => (m = 0 && m' = 0) || (n = n' && m = m' && e = e')
  | infinite n, infinite n' => n = n'
  | _, _ => false

/-- A finite double as an integer multiple of `2 ^ low`. -/
private def scaled (negative : Bool) (m : Nat) (e low : Int) : Int :=
  let n : Int := (m * wholePower 2 (e - low) : Nat)
  if negative then -n else n

/-- The order of the numbers; what is no number is below nothing. -/
def le : Binary64 → Binary64 → Bool
  | finite n m e, finite n' m' e' =>
    let low := min e e'
    scaled n m e low ≤ scaled n' m' e' low
  | infinite true, nan => false
  | infinite true, _ => true
  | _, infinite negative => !negative
  | _, _ => false

def add : Binary64 → Binary64 → Binary64
  | finite n m e, finite n' m' e' =>
    let low := min e e'
    let s := scaled n m e low + scaled n' m' e' low
    ofRatio (s < 0) (s.natAbs * wholePower 2 low) (wholePower 2 (-low))
  | finite .., y => y
  | x, finite .. => x
  | infinite n, infinite n' => if n = n' then infinite n else nan
  | _, _ => nan

def mul : Binary64 → Binary64 → Binary64
  | finite n m e, finite n' m' e' =>
    ofRatio (n != n') (m * m' * wholePower 2 (e + e')) (wholePower 2 (-(e + e')))
  | finite n m _, infinite n' => if m = 0 then nan else infinite (n != n')
  | infinite n, finite n' m _ => if m = 0 then nan else infinite (n != n')
  | infinite n, infinite n' => infinite (n != n')
  | _, _ => nan

/-! ## Shortest decimal -/

/-- Whether `a · 10 ^ i ≤ b · 2 ^ j`. -/
private def decimalLe (a : Nat) (i : Int) (b : Nat) (j : Int) : Bool :=
  a * wholePower 10 i * wholePower 2 (-j) ≤ b * wholePower 2 j * wholePower 10 (-i)

/-- Whether `a · 10 ^ i < b · 2 ^ j`. -/
private def decimalLt (a : Nat) (i : Int) (b : Nat) (j : Int) : Bool :=
  a * wholePower 10 i * wholePower 2 (-j) < b * wholePower 2 j * wholePower 10 (-i)

/-- The largest `k` with `10 ^ k ≤ m · 2 ^ e`, for a positive significand. -/
def decimalLog (m : Nat) (e : Int) : Int :=
  let guess : Int := (e + m.log2) * 30103 / 100000
  if decimalLe 1 (guess + 1) m e then guess + 1
  else if decimalLe 1 guess m e then guess else guess - 1

/-- Whether the decimal `c · 10 ^ i` rounds to `m · 2 ^ e`. -/
def roundsTo (m : Nat) (e : Int) (c : Nat) (i : Int) : Bool :=
  let below := if m = leastFull && -1074 < e then 1 else 2
  if m % 2 = 0 then
    !decimalLt c i (4 * m - below) (e - 2) && decimalLe c i (4 * m + 2) (e - 2)
  else
    !decimalLe c i (4 * m - below) (e - 2) && decimalLt c i (4 * m + 2) (e - 2)

/-- The decimal with a given unit that is nearest to the number and rounds to it. -/
def nearestWithUnit (m : Nat) (e i : Int) : Option Nat :=
  let num := m * wholePower 2 e * wholePower 10 (-i)
  let den := wholePower 2 (-e) * wholePower 10 i
  let low := num / den
  let near := roundHalfEven num den
  let far := if near = low then low + 1 else low
  if roundsTo m e near i then some near
  else if roundsTo m e far i then some far else none

/-- Tries ever more digits, at most seventeen: the digits and the power of ten of the last one. -/
def searchDigits (m : Nat) (e k : Int) : Nat → Nat × Int
  | 0 => ((nearestWithUnit m e (k - 16)).getD 0, k - 16)
  | left + 1 =>
    let unit := k - (16 - (left + 1 : Nat))
    match nearestWithUnit m e unit with
    | some c => (c, unit)
    | none => searchDigits m e k left

/-- The shortest decimal `c · 10 ^ i` that rounds to `m · 2 ^ e`. -/
def shortest (m : Nat) (e : Int) : Nat × Int := searchDigits m e (decimalLog m e) 16

/-- Digits with a point after the first one, and a signed exponent of two digits or more. -/
private def scientific (ds : List Char) (k : Int) : List Char :=
  let mantissa := match ds with
    | [] => ['0']
    | [d] => [d]
    | d :: rest => d :: '.' :: rest
  let size := (toString k.natAbs).toList
  let size := if size.length < 2 then '0' :: size else size
  mantissa ++ 'e' :: (if k < 0 then '-' else '+') :: size

/-- Digits with a point at its place, with at least one digit on either side of it. -/
private def positional (ds : List Char) (k : Int) : List Char :=
  if k < 0 then '0' :: '.' :: (List.replicate ((-k).toNat - 1) '0' ++ ds)
  else
    let whole := k.toNat + 1
    let ds := ds ++ List.replicate (whole - ds.length) '0'
    let fraction := ds.drop whole
    ds.take whole ++ '.' :: (if fraction.isEmpty then ['0'] else fraction)

/-- The text of a double: positional from `1e-04` up to below `1e+16`, else scientific. -/
def text : Binary64 → String
  | nan => "nan"
  | infinite negative => if negative then "-inf" else "inf"
  | finite negative m e =>
    let body :=
      if m = 0 then ['0', '.', '0']
      else
        let (c, i) := shortest m e
        let ds := (toString c).toList
        let k := i + ds.length - 1
        let ds := (ds.reverse.dropWhile (· = '0')).reverse
        if -4 ≤ k ∧ k < 16 then positional ds k else scientific ds k
    String.ofList (if negative then '-' :: body else body)

end Binary64

end CharacterSheet
