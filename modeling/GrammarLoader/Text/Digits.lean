/-!
# Digits

Numbers as runs of digits: the run at the start of a text and the number that it writes, and digits
filled up with zeros or laid out around a point.
-/

namespace GrammarLoader.Text

/-- The longest run of decimal digits, and what follows it. -/
def digitRun (cs : List Char) : List Char × List Char :=
  (cs.takeWhile Char.isDigit, cs.dropWhile Char.isDigit)

/-- The number that decimal digits write. -/
def decimal (ds : List Char) : Nat := ds.foldl (fun n d => n * 10 + (d.toNat - 48)) 0

/-- Digits with zeros in front up to a width. -/
def zeroPadded (width : Nat) (ds : List Char) : List Char := ds.leftpad width '0'

/-- Lower-case digits of a number in a base, with zeros in front up to a width. -/
def digitsIn (base width n : Nat) : List Char := zeroPadded width (Nat.toDigits base n)

/-- Digits without the zeros at their end. -/
def withoutEndZeros (ds : List Char) : List Char :=
  (ds.reverse.dropWhile (· == '0')).reverse

/-- A point and some digits; the point goes when no digit follows, unless it is to stay. -/
def afterPoint (keepPoint : Bool) (ds : List Char) : List Char :=
  if ds.isEmpty && !keepPoint then [] else '.' :: ds

/-- The exponent of a power of ten: letter, sign and at least two digits. -/
def exponent (letter : Char) (power : Int) : List Char :=
  letter :: (if power < 0 then '-' else '+') :: digitsIn 10 2 power.natAbs

end GrammarLoader.Text
