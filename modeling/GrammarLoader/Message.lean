import GrammarLoader.Action

/-!
# Messages

A message asks for an event to be logged: with a level or a level's number, a text that may be a
template, and entries, some of them bound beforehand. Below the threshold nothing of it is looked
at.
-/

namespace GrammarLoader

/-- A message for the log. -/
structure Message where
  /-- The level, or its number. -/
  level : Logging.Level ⊕ Integer
  /-- What happens: a template if there are values to fill in. -/
  template : Value
  /-- The values to fill in. -/
  values : List Value := []
  /-- Entries bound beforehand. -/
  bound : Entries := []
  /-- The message's own entries. -/
  entries : Entries := []

namespace Message

/-- The number that is compared with the threshold. -/
def number (m : Message) : Int :=
  match m.level with
  | .inl l => l.number
  | .inr n => n.value

/-- The level that is asked for. -/
def level? (m : Message) : Except Failure Logging.Level :=
  match m.level with
  | .inl l => .ok l
  | .inr n =>
    match Logging.Level.numbered? n.value with
    | some l => .ok l
    | none => .error (.unknownLevelNumber n)

/-- The event that a message makes. The message's own entries win over bound ones. -/
def event? (m : Message) : Except Failure Logging.Event := do
  let level ← m.level?
  let subject ← (Template.interpolate m.template m.values).mapError Failure.template
  return ⟨level, subject, Assoc.insertAll (Assoc.ofPairs m.bound) m.entries⟩

/-- Logs a message. -/
def log (m : Message) : Action Unit := do
  let threshold := match (← Action.process).logging with
    | some setup => setup.threshold
    | none => 0
  if m.number < threshold then return
  let event ← Action.ofFailure m.event?
  Action.log event

end Message

end GrammarLoader
