/-
**Decimal forms of binary fractions.**

A number that is not an integer is kept as a decimal: the one with the fewest digits among those
that round to the same double, and of those the nearest to it.

* `Decimal.shortest`: the fewest digits for `mantissa · 2 ^ exponent`;
* `Decimal.render`: positional below `10 ^ 16` and down to `10 ^ -5`, with a mark and an exponent
  beyond.
-/

namespace ArtifactIndex

/-- The number `± digits · 10 ^ exponent`. -/
structure Decimal where
  negative : Bool
  digits : Nat
  exponent : Int
deriving Repr, DecidableEq

namespace Decimal

/-- The digits of a number without the zeros at its end, and the number of those zeros. -/
def stripZeros : Nat → Nat → Nat × Nat
  | 0, digits => (digits, 0)
  | fuel + 1, digits =>
    if digits != 0 && digits % 10 == 0 then
      let (rest, count) := stripZeros fuel (digits / 10)
      (rest, count + 1)
    else (digits, 0)

/-- The fraction `numerator / denominator` divided by a power of ten. -/
def scaleDown (numerator denominator : Nat) (power : Int) : Nat × Nat :=
  if power ≥ 0 then (numerator, denominator * Nat.pow 10 power.toNat)
  else (numerator * Nat.pow 10 (-power).toNat, denominator)

/-- The least power of ten above a positive fraction, searched upwards from the given one. -/
def leastPower : Nat → Nat → Nat → Int → Int
  | 0, _, _, power => power
  | fuel + 1, numerator, denominator, power =>
    let (n, d) := scaleDown numerator denominator power
    if n < d then power else leastPower fuel numerator denominator (power + 1)

/-- The digits of the nearest decimal with the given last place inside an interval around a
fraction, all three over one denominator. -/
def fitting? (value low high denominator : Nat) (closed : Bool) (place : Int) : Option Nat :=
  let (valueN, valueD) := scaleDown value denominator place
  let below := valueN / valueD
  let inside := fun digits : Nat =>
    let (n, d) := scaleDown 1 denominator place
    let scaled := digits * d
    let (lowScaled, highScaled) := (low * n, high * n)
    if closed then lowScaled ≤ scaled && scaled ≤ highScaled
    else lowScaled < scaled && scaled < highScaled
  let lowerHit := inside below
  let upperHit := inside (below + 1)
  let remainder := valueN - below * valueD
  if lowerHit && upperHit then
    if 2 * remainder < valueD || (2 * remainder == valueD && below % 2 == 0) then some below
    else some (below + 1)
  else if lowerHit then some below
  else if upperHit then some (below + 1)
  else none

/-- The first number of digits, counted upwards, at which a decimal fits. -/
def firstFitting (value low high denominator : Nat) (closed : Bool) (top : Int) :
    Nat → Int → Nat × Int
  | 0, place => (0, place)
  | fuel + 1, count =>
    let place := top - count
    match fitting? value low high denominator closed place with
    | some digits => (digits, place)
    | none => firstFitting value low high denominator closed top fuel (count + 1)

/-- The decimal with the fewest digits that rounds to the double `mantissa · 2 ^ exponent`. -/
def shortest (negative : Bool) (mantissa : Nat) (exponent : Int) : Decimal :=
  if mantissa == 0 then ⟨negative, 0, 0⟩
  else
    let narrow := mantissa == Nat.pow 2 52 && exponent > -1074
    let scale := fun n : Nat => if exponent ≥ 2 then n * Nat.pow 2 (exponent - 2).toNat else n
    let denominator := if exponent ≥ 2 then 1 else Nat.pow 2 (2 - exponent).toNat
    let value := scale (4 * mantissa)
    let low := scale (if narrow then 4 * mantissa - 1 else 4 * mantissa - 2)
    let high := scale (4 * mantissa + 2)
    let top := leastPower 700 value denominator (-345)
    let closed : Bool := mantissa % 2 == 0
    let (digits, place) := firstFitting value low high denominator closed top 18 1
    let (bare, zeros) := stripZeros 400 digits
    ⟨negative, bare, place + zeros⟩

/-- The shortest decimal of a finite double. -/
def ofFloat (value : Float) : Decimal :=
  let bits := value.toBits.toNat
  let negative := bits / Nat.pow 2 63 == 1
  let field : Nat := bits / Nat.pow 2 52 % Nat.pow 2 11
  let fraction := bits % Nat.pow 2 52
  if field == 0 then shortest negative fraction (-1074)
  else shortest negative (Nat.pow 2 52 + fraction) ((field : Int) - 1075)

/-- A row of zeros. -/
def zeros (count : Nat) : String := String.ofList (List.replicate count '0')

/-- The written form: the point stands inside or next to the digits when the number is below
`10 ^ 16` and at least `10 ^ -5`, else an exponent follows. -/
def render (decimal : Decimal) : String :=
  let text := toString decimal.digits
  let length := text.length
  let point : Int := length + decimal.exponent
  let body :=
    if decimal.digits == 0 then "0.0"
    else if decimal.exponent ≥ 0 && point ≤ 16 then text ++ zeros decimal.exponent.toNat ++ ".0"
    else if 0 < point && point ≤ 16 then
      String.ofList (text.toList.take point.toNat) ++ "." ++
        String.ofList (text.toList.drop point.toNat)
    else if -5 < point && point ≤ 0 then "0." ++ zeros (-point).toNat ++ text
    else
      let mark := "e" ++ toString (point - 1)
      if length == 1 then text ++ mark
      else String.ofList (text.toList.take 1) ++ "." ++ String.ofList (text.toList.drop 1) ++ mark
  if decimal.negative then "-" ++ body else body

end Decimal

end ArtifactIndex
