import GrammarLoader.Failure

/-!
# Objects

What foreign calls give and take: plain values, addresses of grammar tables, capsules around
addresses, the engine's languages, and objects of which only the truth test is known.
-/

namespace GrammarLoader

/-- An address of a grammar table. -/
inductive Address where
  /-- A number of 64 bits. -/
  | number (n : UInt64)
  /-- The table of a grammar of which only the interface version is known. -/
  | table (version : Int)
  deriving Repr, DecidableEq

/-- An object that a foreign call gives or takes. -/
inductive Object where
  | value (v : Value)
  | address (a : Address)
  /-- An address as the engine takes it. -/
  | capsule (a : Address)
  /-- A language of the engine. -/
  | language (version : Int)
  /-- An object with a truth value of its own. -/
  | flag (b : Bool)
  /-- An object with a length; it counts as true when it is longer than zero. -/
  | sized (length : Int)
  /-- An object whose truth test fails. -/
  | undecided (fault : Fault)
  deriving Repr, Inhabited, BEq

namespace Object

/-- The object that stands for nothing. -/
def null : Object := .value .null

/-- The object stands for nothing. -/
def isNull : Object → Bool
  | value .null => true
  | _ => false

/-- The truth test of an object. -/
def truth : Object → Except Fault Bool
  | value v => .ok v.isTrue
  | address (.number n) => .ok (n != 0)
  | address (.table _) | capsule _ | language _ => .ok true
  | flag b => .ok b
  | sized n => .ok (decide (0 < n))
  | undecided f => .error f

/-- The capsule of an integer, cut to 64 bits. -/
def capsuleOf (n : Int) : Except Fault Object :=
  let address := UInt64.ofInt n
  if address == 0 then .error ↑Failure.nullAddress else .ok (.capsule (.number address))

/-- `make_capsule`: wraps an address in a capsule. What counts as false gives nothing; truth values
count as zero and one. -/
def wrap (o : Object) : Except Fault Object := do
  if ← o.truth then
    match o with
    | value (.int n) => capsuleOf n.value
    | value (.bool _) => capsuleOf 1
    | address a => return capsule a
    | _ => .error ↑Failure.notAddress
  else return null

end Object

end GrammarLoader
