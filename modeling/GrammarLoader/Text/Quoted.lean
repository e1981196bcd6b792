import GrammarLoader.Text.Digits
import GrammarLoader.Text.Printable

/-!
# Quoted text

A text between quotes, on one line, with whatever would not show escaped. Single quotes are used
unless the text holds a single quote and no double quote.
-/

namespace GrammarLoader.Text

/-- A character by its code point, in the shortest of the three forms that holds it. -/
def codePointEscape (c : Char) : List Char :=
  let n := c.toNat
  if n < 0x100 then '\\' :: 'x' :: digitsIn 16 2 n
  else if n < 0x10000 then '\\' :: 'u' :: digitsIn 16 4 n
  else '\\' :: 'U' :: digitsIn 16 8 n

/-- The quote that encloses a text. -/
def quoteFor (cs : List Char) : Char :=
  if cs.contains '\x27' && !cs.contains '"' then '"' else '\x27'

/-- One character of a quoted text; `keep` says which characters show as themselves. -/
def quotedChar (keep : Char → Bool) (quote c : Char) : List Char :=
  if c == quote || c == '\\' then ['\\', c]
  else if c == '\n' then ['\\', 'n']
  else if c == '\r' then ['\\', 'r']
  else if c == '\t' then ['\\', 't']
  else if keep c then [c]
  else codePointEscape c

/-- A text in quotes, where the characters outside `keep` are escaped. -/
def quotedKeeping (keep : Char → Bool) (s : String) : String :=
  let quote := quoteFor s.toList
  String.ofList (quote :: s.toList.flatMap (quotedChar keep quote) ++ [quote])

/-- A text in quotes: printable characters show as themselves. -/
def quoted (s : String) : String := quotedKeeping isPrintable s

/-- A text in quotes, written with ASCII characters only. -/
def quotedAscii (s : String) : String :=
  quotedKeeping (fun c => isPrintable c && c.toNat < 128) s

example : quoted "it's" = "\"it's\"" ∧ quoted "a\nb\\" = "'a\\nb\\\\'" := by decide
example : quotedAscii "é" = "'\\xe9'" := by decide +kernel

end GrammarLoader.Text
