import GrammarLoader.Failure
import GrammarLoader.Json.Writer
import GrammarLoader.Logging.Event

/-!
# Log lines

The text of a record: a JSON object, or a line for people with time, level, event and then the other
entries sorted by key. A line for people ends in the record's stack and exception, if it has them.
-/

namespace GrammarLoader.Logging

/-- How records are written. -/
inductive Style where
  | json
  | console
  deriving Repr, DecidableEq

namespace Console

/-- A text filled up with blanks. -/
def fill (width : Nat) (s : String) : String :=
  s ++ String.ofList (List.replicate (width - s.length) ' ')

/-- Characters that make a text show in quotes. -/
def needsQuotes (c : Char) : Bool :=
  [' ', '\t', '\r', '\n', '=', '"', '\x27'].contains c

/-- A value beside its key. -/
def valueText : Value → String
  | .str s => if s.toList.any needsQuotes then Text.quoted s else s
  | v => v.quoted

/-- Inserts an entry into entries sorted by key. -/
def insertSorted (entry : String × Value) : Entries → Entries
  | [] => [entry]
  | e :: rest => if entry.1 ≤ e.1 then entry :: e :: rest else e :: insertSorted entry rest

/-- Entries sorted by key, code point by code point. -/
def sorted (entries : Entries) : Entries := entries.foldr insertSorted []

/-- Keys with a place of their own on the line. -/
def columnKeys : List String :=
  ["timestamp", "level", "event", "logger", "logger_name", "stack", "exception"]

/-- The columns in their order: how the value of a key shows, if it is there. -/
def columns : List (String × (Value → String)) :=
  [("timestamp", Value.shown),
    ("level", fun v => "[" ++ fill 9 v.shown ++ "]"),
    ("event", fun v => fill 30 v.shown),
    ("logger", fun v => "[" ++ v.shown ++ "]"),
    ("logger_name", fun v => "[" ++ v.shown ++ "]")]

/-- A text without blanks at its end. -/
def trimEnd (s : String) : String :=
  String.ofList (s.toList.reverse.dropWhile (· == ' ')).reverse

/-- The first line of a record. -/
def head (record : Entries) : String :=
  let inColumns := columns.filterMap (fun c => (record.lookup c.1).map c.2)
  let others := sorted (record.filter (fun p => !columnKeys.contains p.1))
  let parts := inColumns ++ others.map (fun p => p.1 ++ "=" ++ valueText p.2)
  trimEnd (" ".intercalate (parts.filter (· != "")))

/-- A text that starts on a line of its own, nothing for null. -/
def block : Option Value → Except Failure String
  | none | some .null => .ok ""
  | some (.str s) => .ok ("\n" ++ s)
  | some v => .error (.notAppendable v.typeName)

/-- What stands between the stack and the exception. -/
def divider : String := "\n\n" ++ String.ofList (List.replicate 79 '=') ++ "\n"

/-- The text of a record. -/
def text (record : Entries) : Except Failure String := do
  let stack ← block (record.lookup "stack")
  let exception ← block (record.lookup "exception")
  return head record ++ stack ++
    (if stack == "" || exception == "" then "" else divider) ++ exception

end Console

/-- The text of a record, its line end included. -/
def Style.line : Style → Entries → Except Failure String
  | .json, record => .ok (Json.write (.object record) ++ "\n")
  | .console, record => (Console.text record).map (· ++ "\n")

end GrammarLoader.Logging
