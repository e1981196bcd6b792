import GrammarLoader.Value

/-!
# Writing JSON

The text of a value on one line of ASCII: a blank after each comma and colon, and a `\u` escape for
each UTF-16 unit of a character beyond ASCII.
-/

namespace GrammarLoader.Json

/-- The UTF-16 units of a character: one, or a pair of surrogates. -/
def utf16 (c : Char) : List Nat :=
  let n := c.toNat
  if n < 0x10000 then [n]
  else [0xd800 + (n - 0x10000) / 0x400, 0xdc00 + (n - 0x10000) % 0x400]

/-- The escape of a UTF-16 unit. -/
def unitEscape (unit : Nat) : List Char := '\\' :: 'u' :: Text.digitsIn 16 4 unit

/-- One character inside a string. -/
def escapedChar (c : Char) : List Char :=
  if c == '"' || c == '\\' then ['\\', c]
  else if c == '\n' then ['\\', 'n']
  else if c == '\r' then ['\\', 'r']
  else if c == '\t' then ['\\', 't']
  else if c == '\x08' then ['\\', 'b']
  else if c == '\x0c' then ['\\', 'f']
  else if 32 ≤ c.toNat && c.toNat < 127 then [c]
  else (utf16 c).flatMap unitEscape

/-- A string with its quotes. -/
def stringText (s : String) : List Char := '"' :: s.toList.flatMap escapedChar ++ ['"']

/-- Texts joined by a comma and a blank. -/
def joined (parts : List (List Char)) : List Char := [',', ' '].intercalate parts

mutual
/-- The text of a value. -/
def text : Value → List Char
  | .null => "null".toList
  | .bool true => "true".toList
  | .bool false => "false".toList
  | .int n => (toString n.value).toList
  | .real x => x.text "Infinity" "NaN"
  | .str s => stringText s
  | .list items => '[' :: joined (itemTexts items) ++ [']']
  | .object entries => '\x7b' :: joined (entryTexts entries) ++ ['\x7d']

/-- The texts of a list's items. -/
def itemTexts : List Value → List (List Char)
  | [] => []
  | v :: rest => text v :: itemTexts rest

/-- The texts of an object's entries. -/
def entryTexts : List (String × Value) → List (List Char)
  | [] => []
  | (k, v) :: rest => (stringText k ++ ':' :: ' ' :: text v) :: entryTexts rest
end

/-- The text of a value as a string. -/
def write (v : Value) : String := String.ofList (text v)

example : write (.object [("a", .list [.int (.mk 1), .str "é\n"])]) =
    "\x7b\"a\": [1, \"\\u00e9\\n\"]\x7d" := by decide +kernel
example : write (.str "😀") = "\"\\ud83d\\ude00\"" := by decide +kernel

end GrammarLoader.Json
