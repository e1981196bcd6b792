import GrammarLoader.Double

/-!
# Numbers in templates

The digits of a number as the directives of a template ask for them: with a count of places after
the point, or with a power of ten. A number is given as a multiple of the least positive double and
is rounded from its exact value.
-/

namespace GrammarLoader.Template

/-- A number with a fixed count of places: the digits before and behind the point. -/
def fixed (places multiple : Nat) : List Char × List Char :=
  let ds := Text.digitsIn 10 (places + 1) (roundDiv (multiple * Nat.pow 10 places) Double.one)
  ds.splitAt (ds.length - places)

/-- The first `places + 1` digits of a number, rounded, with the power of ten of the first one. -/
def scientific (places multiple : Nat) : List Char × Int :=
  if multiple = 0 then (List.replicate (places + 1) '0', 0)
  else
    let x := Double.rounded (places + 1) multiple
    ((Nat.toDigits 10 x.digits).take (places + 1), x.pointPlace - 1)

/-- A number with a fixed count of places. -/
def fixedText (keepPoint : Bool) (places multiple : Nat) : List Char :=
  let (whole, ds) := fixed places multiple
  whole ++ Text.afterPoint keepPoint ds

/-- A number as one digit, some places and a power of ten. -/
def scientificText (keepPoint : Bool) (letter : Char) (places multiple : Nat) : List Char :=
  let (ds, power) := scientific places multiple
  ds.take 1 ++ Text.afterPoint keepPoint (ds.drop 1) ++ Text.exponent letter power

/-- A number with a count of significant digits: positional while its whole part has no more of
them and at most four zeros stand in front of them, otherwise with a power of ten. Zeros at the end
of the places go unless all are kept. -/
def generalText (keepAll : Bool) (letter : Char) (precision multiple : Nat) : List Char :=
  let significant := max precision 1
  let (ds, power) := scientific (significant - 1) multiple
  let places := fun (ds : List Char) =>
    Text.afterPoint keepAll (if keepAll then ds else Text.withoutEndZeros ds)
  if -4 ≤ power && power < significant then
    let (whole, behind) := fixed (significant - 1 - power).toNat multiple
    whole ++ places behind
  else ds.take 1 ++ places (ds.drop 1) ++ Text.exponent letter power

example : scientificText false 'e' 2 (12345 * Double.one) = "1.23e+04".toList := by decide +kernel
example : generalText false 'e' 6 (1234567 * Double.one) = "1.23457e+06".toList := by decide +kernel
example : fixedText false 2 (5 * Double.one) = "5.00".toList := by decide +kernel

end GrammarLoader.Template
