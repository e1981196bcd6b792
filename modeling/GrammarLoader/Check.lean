import GrammarLoader.Loader

/-!
# The check of a grammar

A grammar passes if its descriptor can be made, the engine takes the descriptor, and the engine's
language is not empty. Whatever an attempt fails with is reported as one error, once its text is
made.
-/

namespace GrammarLoader.Check

/-- The name of the grammar that is checked when none is given. -/
def grammarName : String := "KPL"

/-- The event of a grammar that does not pass. -/
def failedEvent (name : Value) (reason : String) : Logging.Event :=
  .named .error "grammar_load_failed" [("grammar", name), ("error", .str reason)]

/-- Gives an engine a descriptor. -/
def engage (engine : Engine) (descriptor : Object) : Action Object := do
  Action.perform (.engaged descriptor)
  Action.ofExcept (engine descriptor)

/-- Gives the engine of the world a descriptor. -/
def engageWorld (descriptor : Object) : Action Object := do
  engage (← Action.world).engine descriptor

/-- What `verify_grammar_loads` guards: the engine's language for what a factory makes. A null
descriptor does not reach the engine. -/
def attempt (factory : Action Object) (engine : Object → Action Object) : Action Object := do
  let descriptor ← factory
  if descriptor.isNull then return .null else engine descriptor

/-- The handler of that guard reports a failed attempt. The text of its fault is made first. -/
def report (name : Value) (fault : Fault) : Action Object := do
  let reason ← Action.ofExcept fault.text
  Action.log (failedEvent name reason)
  Action.fail (.dueTo (.grammarRejected name) fault)

/-- `verify_grammar_loads`: the engine's language for a grammar, or the error that the grammar does
not pass. The truth test of the language is not guarded. -/
def verify (name : Value) (factory : Action Object) (engine : Object → Action Object) :
    Action Object := do
  let language ← (attempt factory engine).orRecover (report name)
  if ← Action.ofExcept language.truth then return language
  Action.log (failedEvent name "empty language")
  Action.fail (Failure.grammarRejected name)

/-- The check of the binding's own grammar, as `verify_grammar_loads` does it by default. -/
def verifyOwn : Action Object :=
  verify (.str grammarName) Loader.language engageWorld

end GrammarLoader.Check
