import GrammarLoader.Logging.Level
import GrammarLoader.Value

/-!
# Events

What is logged: a level, what the event is, and further entries. A log line adds the values of the
context, the level's name and the time.
-/

namespace GrammarLoader.Logging

/-- A moment of the clock, in UTC. -/
structure Moment where
  year : Nat
  month : Nat
  day : Nat
  hour : Nat
  minute : Nat
  second : Nat
  microsecond : Nat
  deriving Repr, DecidableEq

namespace Moment

/-- Date and time of day; the fraction of the second is left out when it is zero. -/
def text (m : Moment) : String :=
  let digits := fun width n => String.ofList (Text.digitsIn 10 width n)
  let fraction := if m.microsecond == 0 then "" else "." ++ digits 6 m.microsecond
  digits 4 m.year ++ "-" ++ digits 2 m.month ++ "-" ++ digits 2 m.day ++ "T" ++
    digits 2 m.hour ++ ":" ++ digits 2 m.minute ++ ":" ++ digits 2 m.second ++ fraction ++ "Z"

example : text ⟨987, 6, 5, 4, 3, 2, 10⟩ = "0987-06-05T04:03:02.000010Z" := by decide

end Moment

/-- An event. What it is stands for nothing if it is null. -/
structure Event where
  level : Level
  subject : Value
  entries : Entries := []
  deriving Repr, BEq

namespace Event

/-- An event of the binding. -/
def named (level : Level) (name : String) (entries : Entries := []) : Event :=
  ⟨level, .str name, entries⟩

/-- The event's entries with what it is among them, unless that is null. -/
def contents (e : Event) : Entries :=
  match e.subject with
  | .null => e.entries
  | v => Assoc.insert "event" v e.entries

/-- What the event is, null if nothing says so. -/
def shownSubject (e : Event) : Value := (e.contents.lookup "event").getD .null

/-- The entries beside what the event is. -/
def details (e : Event) : Entries := Assoc.erase "event" e.contents

/-- Adds the entries of the context whose keys are not taken. -/
def addContext (context entries : Entries) : Entries :=
  context.foldl (fun acc p => if (acc.lookup p.1).isSome then acc else acc ++ [p]) entries

/-- Keys that ask for a trace and are not logged themselves. -/
def traceKeys : List String := ["stack_info", "exc_info"]

/-- The entries of the log line: the event's own, those of the context, level and time. -/
def record (context : Entries) (now : Moment) (e : Event) : Entries :=
  let entries := addContext context e.contents
  let entries := Assoc.insert "level" (.str e.level.name) entries
  let entries := Assoc.insert "timestamp" (.str now.text) entries
  entries.filter (fun p => !traceKeys.contains p.1)

end Event

end GrammarLoader.Logging
