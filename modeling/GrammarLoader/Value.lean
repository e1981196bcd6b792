import GrammarLoader.Assoc
import GrammarLoader.Double
import GrammarLoader.Text.Quoted

/-!
# Values

The values that configuration, log events and foreign calls hold: those of a JSON text. A number
with places or an exponent is a double.
-/

namespace GrammarLoader

/-- The most digits that an integer has where it is read or written. -/
def maxDigits : Nat := 4300

/-- The count of an integer's decimal digits. -/
def digitCount (n : Int) : Nat := (Nat.toDigits 10 n.natAbs).length

/-- An integer with a text. Of a longer one none is read, and none is written. -/
structure Integer where
  value : Int
  digits : digitCount value ≤ maxDigits := by decide
  deriving Repr, DecidableEq

/-- The integer itself, if it is not too long. -/
def Integer.ofInt? (n : Int) : Option Integer :=
  if h : digitCount n ≤ maxDigits then some ⟨n, h⟩ else none

@[simp] theorem Integer.ofInt?_value (n : Integer) : ofInt? n.value = some n := by
  simp [ofInt?, n.digits]

/-- A dynamic value. The entries of an object are in order of first appearance. -/
inductive Value where
  | null
  | bool (b : Bool)
  | int (n : Integer)
  | real (x : Double)
  | str (s : String)
  | list (items : List Value)
  | object (entries : List (String × Value))
  deriving Repr, Inhabited, BEq

/-- A mapping in order of first appearance of its keys. -/
abbrev Entries := List (String × Value)

namespace Value

/-- A value counts as true unless it is null, false, a zero or empty. -/
def isTrue : Value → Bool
  | .null => false
  | .bool b => b
  | .int n => n.value != 0
  | .real x => x.isTrue
  | .str s => s != ""
  | .list items => !items.isEmpty
  | .object entries => !entries.isEmpty

/-- The name of a value's type, as error texts give it. -/
def typeName : Value → String
  | .null => "NoneType"
  | .bool _ => "bool"
  | .int _ => "int"
  | .real _ => "float"
  | .str _ => "str"
  | .list _ => "list"
  | .object _ => "dict"

/-- Texts joined by a comma and a blank. -/
def commaSeparated (parts : List String) : String := ", ".intercalate parts

mutual
/-- A value as it is written inside another one, its texts put in quotes by `quote`. -/
def quotedBy (quote : String → String) : Value → String
  | .null => "None"
  | .bool true => "True"
  | .bool false => "False"
  | .int n => toString n.value
  | .real x => String.ofList (x.text "inf" "nan")
  | .str s => quote s
  | .list items => "[" ++ commaSeparated (quotedItems quote items) ++ "]"
  | .object entries => "\x7b" ++ commaSeparated (quotedEntries quote entries) ++ "\x7d"

/-- The items of a list, each written as inside another value. -/
def quotedItems (quote : String → String) : List Value → List String
  | [] => []
  | v :: rest => v.quotedBy quote :: quotedItems quote rest

/-- The entries of an object, each written with its key. -/
def quotedEntries (quote : String → String) : List (String × Value) → List String
  | [] => []
  | (k, v) :: rest => (quote k ++ ": " ++ v.quotedBy quote) :: quotedEntries quote rest
end

/-- A value as it is written inside another one: a text is in quotes. -/
def quoted (v : Value) : String := v.quotedBy Text.quoted

/-- As `quoted`, with ASCII characters only. -/
def quotedAscii (v : Value) : String := v.quotedBy Text.quotedAscii

/-- A value shown on its own: a text is itself. -/
def shown : Value → String
  | .str s => s
  | v => v.quoted

/-- Several values in parentheses; a single one is followed by a comma. -/
def tuple : List Value → String
  | [v] => "(" ++ v.quoted ++ ",)"
  | vs => "(" ++ commaSeparated (vs.map quoted) ++ ")"

mutual
/-- Lays an object over another one, entry by entry and level by level; any other value replaces
what it is laid over. -/
def layOver : (lower upper : Value) → Value
  | .object base, .object entries => .object (layEntries base entries)
  | _, v => v

/-- Lays entries over those of an object. -/
def layEntries (base : List (String × Value)) : List (String × Value) → List (String × Value)
  | [] => base
  | (k, v) :: rest =>
    let merged := match base.lookup k with
      | some old => layOver old v
      | none => v
    layEntries (Assoc.insert k merged base) rest
end

example : (list [.int (.mk 1), .str "a", .null]).shown = "[1, 'a', None]" := by decide
example : (object [("a", .int (.mk 1))]).shown = "\x7b'a': 1\x7d" := by decide
example : tuple [.str "a", .int (.mk 1)] = "('a', 1)" := by decide

end Value

end GrammarLoader
