import GrammarLoader.Check

/-!
# The smoke check

Configures logging from the settings, checks the binding's own grammar and comes to a status: zero
if the grammar passes, one if it does not.
-/

namespace GrammarLoader.Smoke

/-- The event of a check that is passed. -/
def passedEvent : Logging.Event :=
  .named .info "smoke_check_passed" [("grammar", .str Check.grammarName)]

/-- The event of a check that is not passed. -/
def failedEvent (reason : String) : Logging.Event :=
  .named .error "smoke_check_failed" [("error", .str reason)]

/-- The name in the error of a check. -/
def rejectedName? : Failure → Option Value
  | .grammarRejected name => some name
  | _ => none

/-- Whether the grammar passes, by the name in the error if it does not. Only the error of the check
counts. -/
def verdict : Action (Option Value) := fun w p =>
  let checked := Check.verifyOwn w p
  match checked.answer with
  | .ok _ => ⟨.ok none, checked.process, checked.effects⟩
  | .error fault =>
    match rejectedName? fault.failure with
    | some name => ⟨.ok (some name), checked.process, checked.effects⟩
    | none => ⟨.error fault, checked.process, checked.effects⟩

/-- `main`: the smoke check. -/
def run : Action Nat := do
  Action.configureLogging .null .null
  match ← verdict with
  | none =>
    Action.log passedEvent
    return 0
  | some name =>
    Action.log (failedEvent (Failure.rejectedText name))
    return 1

/-- A process ends with a status of its own, or with what foreign code gives for one. -/
inductive ExitStatus where
  | own (status : Nat)
  | asked (status : Value)

/-- The status that a process ends with: that of the check, or one that foreign code asks for. -/
def exitStatus : Except Fault Nat → Except Fault ExitStatus
  | .ok status => .ok (.own status)
  | .error fault =>
    match fault.failure.exitArguments? with
    | none => .error fault
    | some [] => .ok (.asked .null)
    | some [status] => .ok (.asked status)
    | some statuses => .ok (.asked (.list statuses))

end GrammarLoader.Smoke
