import GrammarLoader.Value
import GrammarLoader.Template.Number

/-!
# Templates

A template is a text with directives that values are put into: a percent sign, an optional key in
parentheses, flags, a width, a precision and a letter that says how the value is written. Values
come one after the other from a list, or by key from an object.
-/

namespace GrammarLoader

/-- Why values do not fit a template. -/
inductive TemplateError where
  /-- The text ends inside a directive. -/
  | unfinished
  /-- The text ends inside a directive's key. -/
  | unfinishedKey
  /-- No such letter, at this place in the text. -/
  | unknownLetter (letter : Char) (index : Nat)
  /-- A directive finds no value left. -/
  | tooFewValues
  /-- Values are left over. -/
  | tooManyValues
  /-- A directive has a key and the values are not an object. -/
  | keyWithoutObject
  /-- The object has no such key. -/
  | noSuchKey (key : String)
  /-- A width or precision that is given by a value is not an integer. -/
  | sizeNotInteger
  /-- A width or precision that is given by a value is beyond its word. -/
  | sizeBeyond (word : String)
  /-- A width or precision in the template is beyond its word. -/
  | sizeTooBig (name : String)
  /-- The letter asks for a number and the value is of another type. -/
  | notNumber (letter : Char) (type : String)
  /-- The letter asks for an integer and the value is of another type. -/
  | notInteger (letter : Char) (type : String)
  /-- The letter asks for a number with places and the value is of another type. -/
  | notReal (type : String)
  /-- An integer is beyond all numbers with places. -/
  | tooLarge
  /-- An infinite number has no integer part. -/
  | infinite
  /-- What is no number has no integer part. -/
  | undefined
  /-- The value is neither a single character nor the number of one. -/
  | notCharacter
  /-- The value is not the number of any character. -/
  | noSuchCharacter
  /-- What should be the template is of another type. -/
  | notTemplate (type valuesType : String)
  deriving Repr, DecidableEq

namespace TemplateError

/-- The text of an error. -/
def message : TemplateError → String
  | unfinished => "incomplete format"
  | unfinishedKey => "incomplete format key"
  | unknownLetter c i =>
    let shown := if 31 ≤ c.toNat && c.toNat < 127 then c else '?'
    "unsupported format character '" ++ shown.toString ++ "' (0x" ++
      String.ofList (Nat.toDigits 16 c.toNat) ++ ") at index " ++ toString i
  | tooFewValues => "not enough arguments for format string"
  | tooManyValues => "not all arguments converted during string formatting"
  | keyWithoutObject => "format requires a mapping"
  | noSuchKey k => Text.quoted k
  | sizeNotInteger => "* wants int"
  | sizeBeyond word => "Python int too large to convert to C " ++ word
  | sizeTooBig name => name ++ " too big"
  | notNumber c t => "%" ++ c.toString ++ " format: a real number is required, not " ++ t
  | notInteger c t => "%" ++ c.toString ++ " format: an integer is required, not " ++ t
  | notReal t => "must be real number, not " ++ t
  | tooLarge => "int too large to convert to float"
  | infinite => "cannot convert float infinity to integer"
  | undefined => "cannot convert float NaN to integer"
  | notCharacter => "%c requires int or char"
  | noSuchCharacter => "%c arg not in range(0x110000)"
  | notTemplate t v => "unsupported operand type(s) for %: '" ++ t ++ "' and '" ++ v ++ "'"

end TemplateError

namespace Template

/-- How a directive wants its value laid out. -/
structure Layout where
  /-- Blanks go behind the text and not in front of it. -/
  left : Bool := false
  /-- A number that is not negative has a plus sign. -/
  plus : Bool := false
  /-- A number that is not negative has a blank for a sign. -/
  blank : Bool := false
  /-- The form with the base in front, or with the point kept. -/
  alternate : Bool := false
  /-- Zeros fill a number up to its width. -/
  zero : Bool := false
  /-- The least width. -/
  width : Nat := 0
  /-- The places, digits or characters asked for. -/
  precision : Option Nat := none

/-- The integer that a value is, truth values counting as zero and one. -/
def integer? : Value → Option Int
  | .int n => some n.value
  | .bool b => some (if b then 1 else 0)
  | _ => none

/-- The integer part of a number. -/
def truncated : Double → Except TemplateError Int
  | .finite negative place =>
    let n : Nat := Double.multiple place / Double.one
    .ok (if negative then -n else n)
  | .infinite _ => .error .infinite
  | .undefined => .error .undefined

/-- The integer that a value stands for where a directive asks for one. -/
def whole? (letter : Char) (v : Value) : Except TemplateError Int :=
  match v, integer? v with
  | .real x, _ => truncated x
  | _, some n => .ok n
  | v, none => .error (.notNumber letter v.typeName)

/-- The number that a value stands for where a directive asks for one with places. -/
def double? (v : Value) : Except TemplateError Double :=
  match v, integer? v with
  | .real x, _ => .ok x
  | _, some n =>
    match Double.ofRatio (decide (n < 0)) n.natAbs 1 with
    | .infinite _ => .error .tooLarge
    | x => .ok x
  | v, none => .error (.notReal v.typeName)

/-- A text filled up with blanks. -/
def Layout.pad (l : Layout) (text : List Char) : List Char :=
  if l.left then text ++ List.replicate (l.width - text.length) ' ' else text.leftpad l.width ' '

/-- A number's sign, base and digits filled up to the width: zeros go between base and digits,
blanks outside. -/
def Layout.padNumber (l : Layout) (negative : Bool) (base digits : List Char) : List Char :=
  let sign := if negative then ['-'] else if l.plus then ['+'] else if l.blank then [' '] else []
  let front := sign ++ base
  if l.zero && !l.left then front ++ Text.zeroPadded (l.width - front.length) digits
  else l.pad (front ++ digits)

/-- A text cut to the precision and filled up. -/
def Layout.text (l : Layout) (s : String) : List Char :=
  let cs := s.toList
  l.pad (match l.precision with
    | some p => cs.take p
    | none => cs)

/-- An integer in a base. -/
def Layout.integer (l : Layout) (letter : Char) (n : Int) : List Char :=
  let lower := letter.toLower
  let base := if lower == 'x' then 16 else if lower == 'o' then 8 else 10
  let ds := Text.digitsIn base (l.precision.getD 0) n.natAbs
  let ds := if letter == 'X' then ds.map Char.toUpper else ds
  l.padNumber (decide (n < 0)) (if l.alternate && base != 10 then ['0', letter] else []) ds

/-- A number with places. -/
def Layout.real (l : Layout) (letter : Char) (x : Double) : List Char :=
  let precision := l.precision.getD 6
  let exponentLetter := if letter.isUpper then 'E' else 'e'
  let word := fun (s : String) => (if letter.isUpper then s.toUpper else s).toList
  match x with
  | .finite negative place =>
    let m := Double.multiple place
    l.padNumber negative [] (match letter.toLower with
      | 'f' => fixedText l.alternate precision m
      | 'e' => scientificText l.alternate exponentLetter precision m
      | _ => generalText l.alternate exponentLetter precision m)
  | .infinite negative => l.padNumber negative [] (word "inf")
  | .undefined => l.padNumber false [] (word "nan")

/-- A single character, given as such or by its number. -/
def Layout.character (l : Layout) (v : Value) : Except TemplateError (List Char) :=
  match v, integer? v with
  | .str s, _ => match s.toList with
    | [c] => .ok (l.pad [c])
    | _ => .error .notCharacter
  | _, some n =>
    if 0 ≤ n && n < 0x110000 then .ok (l.pad [Char.ofNat n.toNat]) else .error .noSuchCharacter
  | _, none => .error .notCharacter

/-- A value written as a directive's letter says. -/
def Layout.convert (l : Layout) (letter : Char) (index : Nat) (v : Value) :
    Except TemplateError (List Char) :=
  if letter == 's' then .ok (l.text v.shown)
  else if letter == 'r' then .ok (l.text v.quoted)
  else if letter == 'a' then .ok (l.text v.quotedAscii)
  else if letter == 'd' || letter == 'i' || letter == 'u' then
    (whole? letter v).map (l.integer letter)
  else if letter == 'o' || letter == 'x' || letter == 'X' then
    match integer? v with
    | some n => .ok (l.integer letter n)
    | none => .error (.notInteger letter v.typeName)
  else if ['e', 'E', 'f', 'F', 'g', 'G'].contains letter then
    (double? v).map (l.real letter)
  else if letter == 'c' then l.character v
  else .error (.unknownLetter letter index)

/-- Values that are still to be put in. -/
abbrev Supply := List Value

/-- The next value. -/
def Supply.next : Supply → Except TemplateError (Value × Supply)
  | [] => .error .tooFewValues
  | v :: rest => .ok (v, rest)

/-- A key up to its closing parenthesis, and what follows; `depth` counts the open ones inside. -/
def keyText : (depth : Nat) → List Char → Except TemplateError (List Char × List Char)
  | _, [] => .error .unfinishedKey
  | 0, ')' :: rest => .ok ([], rest)
  | depth, c :: rest => do
    let deeper := if c == '(' then depth + 1 else if c == ')' then depth - 1 else depth
    let (key, after) ← keyText deeper rest
    return (c :: key, after)

/-- The flags at the start of a text, and what follows. -/
def flags : Layout → List Char → Layout × List Char
  | l, '-' :: rest => flags { l with left := true } rest
  | l, '+' :: rest => flags { l with plus := true } rest
  | l, ' ' :: rest => flags { l with blank := true } rest
  | l, '#' :: rest => flags { l with alternate := true } rest
  | l, '0' :: rest => flags { l with zero := true } rest
  | l, rest => (l, rest)

/-- A size that a directive has: its name, the word that holds it, and the most that word holds. -/
structure Size where
  name : String
  word : String
  most : Nat

/-- The width of a directive. -/
def widthSize : Size := ⟨"width", "ssize_t", Nat.pow 2 63 - 1⟩

/-- The precision of a directive. -/
def precisionSize : Size := ⟨"precision", "int", Nat.pow 2 31 - 1⟩

/-- A size that a star takes from the values. -/
def Size.taken (size : Size) (supply : Supply) : Except TemplateError (Int × Supply) := do
  let (v, rest) ← supply.next
  match integer? v with
  | some n =>
    if -(size.most : Int) - 1 ≤ n && n ≤ size.most then return (n, rest)
    else .error (.sizeBeyond size.word)
  | none => .error .sizeNotInteger

/-- A size that the template gives, and what follows it. -/
def Size.written (size : Size) (cs : List Char) : Except TemplateError (Nat × List Char) :=
  let (ds, rest) := Text.digitRun cs
  let n := Text.decimal ds
  if n ≤ size.most then .ok (n, rest) else .error (.sizeTooBig size.name)

/-- The width of a directive. A negative one taken from the values turns to the left. -/
def width (l : Layout) (cs : List Char) (supply : Supply) :
    Except TemplateError (Layout × List Char × Supply) :=
  match cs with
  | '*' :: rest => do
    let (n, supply) ← widthSize.taken supply
    return ({ l with left := l.left || decide (n < 0), width := n.natAbs }, rest, supply)
  | cs => do
    let (n, rest) ← widthSize.written cs
    return ({ l with width := n }, rest, supply)

/-- The precision of a directive. A negative one taken from the values counts as zero. -/
def precision (l : Layout) (cs : List Char) (supply : Supply) :
    Except TemplateError (Layout × List Char × Supply) :=
  match cs with
  | '.' :: '*' :: rest => do
    let (n, supply) ← precisionSize.taken supply
    return ({ l with precision := some n.toNat }, rest, supply)
  | '.' :: rest => do
    let (n, rest) ← precisionSize.written rest
    return ({ l with precision := some n }, rest, supply)
  | cs => .ok (l, cs, supply)

/-- A size letter before the directive's own letter means nothing. -/
def skipSizeLetter : List Char → List Char
  | c :: rest => if c == 'h' || c == 'l' || c == 'L' then rest else c :: rest
  | [] => []

/-- The key of a directive picks its value; without one the values come in turn. -/
def pick (entries : Option Entries) (cs : List Char) (supply : Supply) :
    Except TemplateError (List Char × Supply) :=
  match cs, entries with
  | '(' :: _, none => .error .keyWithoutObject
  | '(' :: rest, some es => do
    let (key, after) ← keyText 0 rest
    match es.lookup (String.ofList key) with
    | some v => return (after, [v])
    | none => .error (.noSuchKey (String.ofList key))
  | cs, _ => .ok (cs, supply)

/-- One directive after its percent sign: what it writes, what follows it, and the values left. -/
def directive (size : Nat) (entries : Option Entries) (cs : List Char) (supply : Supply) :
    Except TemplateError (List Char × List Char × Supply) := do
  let (cs, supply) ← pick entries cs supply
  let (layout, cs) := flags {} cs
  let (layout, cs, supply) ← width layout cs supply
  let (layout, cs, supply) ← precision layout cs supply
  match skipSizeLetter cs with
  | [] => .error .unfinished
  | letter :: rest =>
    let (v, supply) ← supply.next
    let written ← layout.convert letter (size - (rest.length + 1)) v
    return (written, rest, supply)

/-- The text after the directives are filled in, and the values left. Two percent signs stand for
one. Every turn takes at least one character, so the length bounds the turns. -/
def fillFrom (size : Nat) (entries : Option Entries) :
    Nat → List Char → Supply → Except TemplateError (List Char × Supply)
  | 0, _, supply => .ok ([], supply)
  | _ + 1, [], supply => .ok ([], supply)
  | fuel + 1, '%' :: '%' :: rest, supply => do
    let (text, supply) ← fillFrom size entries fuel rest supply
    return ('%' :: text, supply)
  | fuel + 1, '%' :: rest, supply => do
    let (written, rest, supply) ← directive size entries rest supply
    let (text, supply) ← fillFrom size entries fuel rest supply
    return (written ++ text, supply)
  | fuel + 1, c :: rest, supply => do
    let (text, supply) ← fillFrom size entries fuel rest supply
    return (c :: text, supply)

/-- Fills a template from a list of values, all of which have to be used. -/
def fill (template : String) (values : List Value) : Except TemplateError String := do
  let cs := template.toList
  let (text, supply) ← fillFrom cs.length none cs.length cs values
  if supply.isEmpty then return String.ofList text else .error .tooManyValues

/-- Fills a template from an object: by key, or with the object itself where no key is given. -/
def fillByKey (template : String) (entries : Entries) : Except TemplateError String := do
  let cs := template.toList
  let (text, _) ← fillFrom cs.length (some entries) cs.length cs [.object entries]
  return String.ofList text

/-- Puts values into a value that should be a template. A single object that is not empty gives
its entries by key. -/
def interpolate (template : Value) (values : List Value) : Except TemplateError Value :=
  match template, values with
  | v, [] => .ok v
  | .str t, [.object (e :: es)] => (fillByKey t (e :: es)).map Value.str
  | .str t, vs => (fill t vs).map Value.str
  | v, [.object (_ :: _)] => .error (.notTemplate v.typeName "dict")
  | v, _ => .error (.notTemplate v.typeName "tuple")

example : (interpolate (.str "%5d|%-5s|") [.int (.mk 3), .str "a"]).toOption.map Value.shown =
    some "    3|a    |" := by decide +kernel

end Template

end GrammarLoader
