import GrammarLoader.Text.Digits

/-!
# Doubles

Binary numbers of 64 bits: the one that a decimal is rounded to, and the decimal with the fewest
digits that is rounded to a given one. All of it is exact arithmetic on integers, since the finite
numbers are whole multiples of the least positive one.
-/

namespace GrammarLoader

/-- A nonnegative integer divided by a positive one, to the nearest integer; a half goes to the
even neighbour. -/
def roundDiv (n d : Nat) : Nat :=
  let q := n / d
  let twice := 2 * (n % d)
  if d < twice || (twice == d && q % 2 == 1) then q + 1 else q

/-- An integer and the power of ten that it is multiplied with. -/
structure Decimal where
  digits : Nat
  power : Int
  deriving Repr, DecidableEq

/-- The count of the binary numbers of 64 bits from one power of two to the next. -/
def Double.perBinade : Nat := Nat.pow 2 52

/-- A binary number of 64 bits. The finite numbers of a sign are counted from zero upwards. -/
inductive Double where
  | finite (negative : Bool) (place : Fin (2047 * Double.perBinade))
  | infinite (negative : Bool)
  /-- The outcome of an operation that has none. -/
  | undefined
  deriving Repr, DecidableEq

namespace Double

/-- The number one as a multiple of the least positive number. -/
def one : Nat := Nat.pow 2 1074

/-- A finite number, by its place, as a multiple of the least positive one. -/
def multiple (place : Nat) : Nat :=
  let fraction := place % perBinade
  match place / perBinade with
  | 0 => fraction
  | binade + 1 => (perBinade + fraction) * Nat.pow 2 binade

/-- The place of what a ratio is rounded to: 53 binary digits are kept, or as many as stand before
the least positive number. -/
def placeOf (n d : Nat) : Nat :=
  let scaled := n * one
  let dropped := (scaled / d).log2 - 52
  dropped * perBinade + roundDiv scaled (d * Nat.pow 2 dropped)

/-- The number that a ratio is rounded to, infinite beyond the finite ones. -/
def ofRatio (negative : Bool) (n d : Nat) : Double :=
  if h : placeOf n d < 2047 * perBinade then .finite negative ⟨placeOf n d, h⟩
  else .infinite negative

end Double

namespace Decimal

/-- The numerator of a decimal as a ratio. -/
def numerator (x : Decimal) : Nat := x.digits * Nat.pow 10 x.power.toNat

/-- The denominator of a decimal as a ratio. -/
def denominator (x : Decimal) : Nat := Nat.pow 10 (-x.power).toNat

/-- The count of the digits before the point, less that of the zeros right behind it. -/
def pointPlace (x : Decimal) : Int := (Nat.toDigits 10 x.digits).length + x.power

/-- The double that a decimal is rounded to. The powers of ten beyond all doubles are not worked
out. -/
def double (negative : Bool) (x : Decimal) : Double :=
  if x.digits = 0 ∨ x.pointPlace < -330 then .finite negative ⟨0, by decide⟩
  else if 310 < x.pointPlace then .infinite negative
  else .ofRatio negative x.numerator x.denominator

/-- The text of a decimal with at least one digit before and behind the point, or with a power of
ten from the seventeenth digit before the point and the fourth zero behind it on. -/
def text (x : Decimal) : List Char :=
  let ds := Text.withoutEndZeros (Nat.toDigits 10 x.digits)
  let point := x.pointPlace
  if point ≤ -4 || 16 < point then
    ds.take 1 ++ Text.afterPoint false (ds.drop 1) ++ Text.exponent 'e' (point - 1)
  else if point ≤ 0 then '0' :: '.' :: List.replicate point.natAbs '0' ++ ds
  else
    let whole := ds.take point.natAbs
    let places := ds.drop point.natAbs
    whole ++ List.replicate (point.natAbs - whole.length) '0' ++
      '.' :: (if places.isEmpty then ['0'] else places)

end Decimal

namespace Double

/-- A positive number, given as a multiple of the least one, over a power of ten that leaves some
digits before the point: numerator, denominator and power. -/
def overPower (count multiple : Nat) : Nat × Nat × Int :=
  -- the least positive number is above the 324th place
  let shift := 324 + count
  let scaled := multiple * Nat.pow 10 shift
  let excess := (Nat.toDigits 10 (scaled / one)).length - count
  (scaled, one * Nat.pow 10 excess, excess - shift)

/-- A positive number rounded to a count of decimal digits. -/
def rounded (count multiple : Nat) : Decimal :=
  let (n, d, power) := overPower count multiple
  ⟨roundDiv n d, power⟩

/-- The two decimals of a count of digits that a positive number is between, the nearer one
first. -/
def neighbours (count multiple : Nat) : List Decimal :=
  let (n, d, power) := overPower count multiple
  let near := roundDiv n d
  [⟨near, power⟩, ⟨if near == n / d then n / d + 1 else n / d, power⟩]

/-- A finite number as a decimal, to its last digit. -/
def exact (place : Nat) : Decimal := ⟨multiple place * Nat.pow 5 1074, -1074⟩

/-- The decimal with the fewest digits that is rounded to a positive finite number. -/
def shortest (place : Nat) : Decimal :=
  ((List.range' 1 17).findSome? fun count =>
    (neighbours count (multiple place)).find? fun x =>
      placeOf x.numerator x.denominator == place).getD (exact place)

/-- The sign in front of a number. -/
def sign (negative : Bool) : List Char := if negative then ['-'] else []

/-- The text of a number, with words for infinity and for what is no number. -/
def text (infinity undefined : String) : Double → List Char
  | .finite negative place =>
    sign negative ++ (if place.val = 0 then "0.0".toList else (shortest place).text)
  | .infinite negative => sign negative ++ infinity.toList
  | .undefined => undefined.toList

/-- The number is not zero. -/
def isTrue : Double → Bool
  | .finite _ place => place.val != 0
  | _ => true

end Double

example : ((⟨15, -1⟩ : Decimal).double true).text "inf" "nan" = "-1.5".toList := by
  decide +kernel
example : ((⟨1, -400⟩ : Decimal).double false).isTrue = false := by decide +kernel

end GrammarLoader
