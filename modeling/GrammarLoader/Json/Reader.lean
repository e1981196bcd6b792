import GrammarLoader.Value

/-!
# Reading JSON

A strict reader: blanks are space, tab and the two line ends; a string holds no control character;
an integer has at most 4300 digits; nothing may follow the value. Beside the standard's numbers the
words `NaN`, `Infinity` and `-Infinity` are read.
-/

namespace GrammarLoader.Json

/-- Blanks between tokens. -/
def isSpace (c : Char) : Bool := c == ' ' || c == '\t' || c == '\n' || c == '\r'

/-- What follows the blanks. -/
def skipSpace (cs : List Char) : List Char := cs.dropWhile isSpace

/-- The value of a hexadecimal digit of either case. -/
def hexValue? (c : Char) : Option Nat :=
  if c.isDigit then some (c.toNat - 48)
  else if 'a' ≤ c && c ≤ 'f' then some (c.toNat - 87)
  else if 'A' ≤ c && c ≤ 'F' then some (c.toNat - 55)
  else none

/-- The number that four hexadecimal digits write. -/
def unit? (a b c d : Char) : Option Nat := do
  let a ← hexValue? a
  let b ← hexValue? b
  let c ← hexValue? c
  let d ← hexValue? d
  return ((a * 16 + b) * 16 + c) * 16 + d

/-- What a backslash and one letter stand for. -/
def shortEscape? : Char → Option Char
  | '"' => some '"'
  | '\\' => some '\\'
  | '/' => some '/'
  | 'b' => some '\x08'
  | 'f' => some '\x0c'
  | 'n' => some '\n'
  | 'r' => some '\r'
  | 't' => some '\t'
  | _ => none

/-- The rest of a string after its opening quote, as code points and surrogates, and what follows
the closing quote. -/
def stringUnits : List Char → Option (List Nat × List Char)
  | [] => none
  | '"' :: rest => some ([], rest)
  | '\\' :: 'u' :: a :: b :: c :: d :: rest => do
    let unit ← unit? a b c d
    let (units, after) ← stringUnits rest
    return (unit :: units, after)
  | '\\' :: c :: rest => do
    let x ← shortEscape? c
    let (units, after) ← stringUnits rest
    return (x.toNat :: units, after)
  | c :: rest =>
    if c.toNat < 32 then none
    else do
      let (units, after) ← stringUnits rest
      return (c.toNat :: units, after)

/-- First halves of surrogate pairs. -/
def isHighSurrogate (n : Nat) : Bool := 0xd800 ≤ n && n < 0xdc00

/-- Second halves of surrogate pairs. -/
def isLowSurrogate (n : Nat) : Bool := 0xdc00 ≤ n && n < 0xe000

/-- A code point, or the replacement character for a surrogate without its other half. -/
def charOf (n : Nat) : Char :=
  if isHighSurrogate n || isLowSurrogate n then '\ufffd' else Char.ofNat n

/-- Joins each pair of surrogates into the character it stands for. -/
def joinSurrogates : List Nat → List Char
  | [] => []
  | [n] => [charOf n]
  | h :: l :: rest =>
    if isHighSurrogate h && isLowSurrogate l then
      Char.ofNat (0x10000 + (h - 0xd800) * 0x400 + (l - 0xdc00)) :: joinSurrogates rest
    else charOf h :: joinSurrogates (l :: rest)

/-- The rest of a string after its opening quote, and what follows the closing quote. -/
def stringAfterQuote (cs : List Char) : Option (String × List Char) :=
  (stringUnits cs).map (fun p => (String.ofList (joinSurrogates p.1), p.2))

/-- The integer part of a number: a lone zero, or digits that start with another one. -/
def integerPart : List Char → Option (List Char × List Char)
  | '0' :: rest => some (['0'], rest)
  | cs => match Text.digitRun cs with
    | ([], _) => none
    | p => some p

/-- The digits behind a point, at least one, if the text goes on with them. -/
def fractionPart : List Char → List Char × List Char
  | '.' :: rest => match Text.digitRun rest with
    | ([], _) => ([], '.' :: rest)
    | p => p
  | cs => ([], cs)

/-- A sign, true if it is a minus, and what follows it. -/
def signPart : List Char → Bool × List Char
  | '+' :: rest => (false, rest)
  | '-' :: rest => (true, rest)
  | cs => (false, cs)

/-- An exponent behind its letter, if the text goes on with one. -/
def exponentPart : List Char → Option Int × List Char
  | [] => (none, [])
  | e :: rest =>
    if e == 'e' || e == 'E' then
      let (negative, unsigned) := signPart rest
      match Text.digitRun unsigned with
      | ([], _) => (none, e :: rest)
      | (ds, after) =>
        (some (if negative then -(Text.decimal ds : Int) else Text.decimal ds), after)
    else (none, e :: rest)

/-- The value of a number's parts: with places or an exponent it is a double, otherwise an
integer. -/
def numeral (negative : Bool) (whole fraction : List Char) (exponent : Option Int) :
    Option Value :=
  if fraction.isEmpty && exponent.isNone then
    let n : Int := Text.decimal whole
    (Integer.ofInt? (if negative then -n else n)).map Value.int
  else
    let x : Decimal := ⟨Text.decimal (whole ++ fraction), exponent.getD 0 - fraction.length⟩
    some (.real (x.double negative))

/-- A number behind its sign, and what follows it. -/
def unsigned (negative : Bool) (cs : List Char) : Option (Value × List Char) := do
  let (whole, afterWhole) ← integerPart cs
  let (fraction, afterFraction) := fractionPart afterWhole
  let (exponent, after) := exponentPart afterFraction
  let v ← numeral negative whole fraction exponent
  return (v, after)

/-- A number, and what follows it. -/
def number : List Char → Option (Value × List Char)
  | '-' :: rest => unsigned true rest
  | cs => unsigned false cs

/-- The words that stand for values. -/
def words : List (String × Value) :=
  [("null", .null), ("true", .bool true), ("false", .bool false), ("NaN", .real .undefined),
    ("Infinity", .real (.infinite false)), ("-Infinity", .real (.infinite true))]

/-- A word or a number, and what follows it. -/
def scalar (cs : List Char) : Option (Value × List Char) :=
  match words.find? (fun w => w.1.toList.isPrefixOf cs) with
  | some (word, v) => some (v, cs.drop word.length)
  | none => number cs

mutual
/-- A value at the start of a text, and what follows it. The first argument bounds the depth. -/
def valueAt : Nat → List Char → Option (Value × List Char)
  | 0, _ => none
  | _ + 1, '"' :: rest => do
    let (s, after) ← stringAfterQuote rest
    return (.str s, after)
  | fuel + 1, '[' :: rest =>
    match skipSpace rest with
    | ']' :: after => some (.list [], after)
    | inner => do
      let (items, after) ← itemsAt fuel inner
      return (.list items, after)
  | fuel + 1, '\x7b' :: rest =>
    match skipSpace rest with
    | '\x7d' :: after => some (.object [], after)
    | inner => do
      let (entries, after) ← entriesAt fuel inner
      return (.object (Assoc.ofPairs entries), after)
  | _ + 1, cs => scalar cs

/-- The items of a list up to its closing bracket, and what follows it. -/
def itemsAt : Nat → List Char → Option (List Value × List Char)
  | 0, _ => none
  | fuel + 1, cs => do
    let (v, afterValue) ← valueAt fuel cs
    match skipSpace afterValue with
    | ']' :: after => return ([v], after)
    | ',' :: more =>
      let (items, after) ← itemsAt fuel (skipSpace more)
      return (v :: items, after)
    | _ => none

/-- The entries of an object up to its closing brace, and what follows it. -/
def entriesAt : Nat → List Char → Option (List (String × Value) × List Char)
  | 0, _ => none
  | fuel + 1, '"' :: cs => do
    let (key, afterKey) ← stringAfterQuote cs
    match skipSpace afterKey with
    | ':' :: beforeValue =>
      let (v, afterValue) ← valueAt fuel (skipSpace beforeValue)
      match skipSpace afterValue with
      | '\x7d' :: after => return ([(key, v)], after)
      | ',' :: more =>
        let (entries, after) ← entriesAt fuel (skipSpace more)
        return ((key, v) :: entries, after)
      | _ => none
    | _ => none
  | _ + 1, _ => none
end

/-- The value that a list of characters writes, if it writes one. Every value takes a character and
every list or object two turns at most for each, which is the bound on the depth. -/
def parse (cs : List Char) : Option Value := do
  let (v, rest) ← valueAt (2 * cs.length + 2) (skipSpace cs)
  if (skipSpace rest).isEmpty then some v else none

/-- The value that a text writes, if it writes one. -/
def read (s : String) : Option Value := parse s.toList

example : (read " [1, -2.5e3, \"\\u00e9\"] ").map Value.shown = some "[1, -2500.0, 'é']" := by
  decide +kernel
example : (read "[1,]").isNone ∧ (read "01").isNone ∧ (read "").isNone := by decide

end GrammarLoader.Json
