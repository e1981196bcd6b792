import GrammarLoader.Object

/-!
# Behaviours

What a call to foreign code may come to, said without the code: a fixed object or fault, the object
given, or a capsule. The engine proper takes capsules around grammar tables and nothing else.
-/

namespace GrammarLoader

/-- How foreign code behaves when it is called. -/
inductive Behaviour where
  /-- Comes to an object. -/
  | gives (o : Object)
  /-- Fails. -/
  | fails (fault : Fault)
  /-- Comes to the object that it is given. -/
  | echoes
  /-- Wraps an address in a capsule. -/
  | wraps (address : Object)
  /-- Does what the engine does. -/
  | engine

namespace Behaviour

/-- The language of a descriptor, as the engine proper makes it. -/
def languageOf : Object → Except Fault Object
  | .capsule (.table version) => .ok (.language version)
  | _ => .error ↑(Failure.foreign .badType [.str "an integer is required"])

/-- What a call with an object comes to. -/
def onObject (b : Behaviour) (given : Object) : Except Fault Object :=
  match b with
  | gives o => .ok o
  | fails fault => .error fault
  | echoes => .ok given
  | wraps address => address.wrap
  | engine => languageOf given

/-- What a call without an object comes to. -/
def onNothing (b : Behaviour) : Except Fault Object := b.onObject .null

end Behaviour

end GrammarLoader
