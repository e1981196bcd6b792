import GrammarLoader.Proofs.Session.Trace

/-!
# Code that calls the binding

A check is given code of its caller's, and such code may call the binding in turn: it goes on from
whatever each of its calls comes to. A call of the binding is an operation, or a check with a
factory and an engine of this kind. As an operation does, it runs over any source of the library.
-/

namespace GrammarLoader

/-- Runs an action and goes on from what it comes to, be it a fault. -/
def Action.settle {α β : Type} (x : Action α) (next : Except Fault α → Action β) : Action β :=
  fun w p =>
    let first := x w p
    let second := next first.answer w first.process
    ⟨second.answer, second.process, first.effects ++ second.effects⟩

/-- Code outside the binding. -/
inductive Script where
  | done (result : Except Fault Object)
  /-- Runs an operation and goes on. -/
  | call (o : Operation) (next : Except Fault Answer → Script)

namespace Script

/-- The code calls operations of the binding only. -/
def IsOwn : Script → Prop
  | done _ => True
  | call o next => o.isOwn ∧ ∀ answer, (next answer).IsOwn

/-- Runs the code. -/
def runFrom (source : Action Loaded) : Script → Action Object
  | done result => Action.ofExcept result
  | call o next => (o.runFrom source).settle fun answer => (next answer).runFrom source

end Script

/-- A call of the binding. -/
inductive Call where
  | operation (o : Operation)
  /-- The check of a grammar by name, with code for the factory and for the engine. -/
  | verify (name : Value) (factory : Script) (engine : Object → Script)

namespace Call

/-- The call uses operations of the binding only. -/
def IsOwn : Call → Prop
  | operation o => o.isOwn
  | verify _ factory engine => factory.IsOwn ∧ ∀ descriptor, (engine descriptor).IsOwn

/-- Runs a call, for a source of the library. -/
def runFrom (source : Action Loaded) : Call → Action Answer
  | operation o => o.runFrom source
  | verify name factory engine => do
    let engine (descriptor : Object) : Action Object := do
      Action.perform (.engaged descriptor)
      (engine descriptor).runFrom source
    return .object (← Check.verify name (factory.runFrom source) engine)

end Call

namespace Session

/-- What the calls of a session report, for a source of the library. -/
def runFrom (source : Action Loaded) : Session → List Call → List Report
  | _, [] => []
  | s, c :: rest =>
    let outcome := c.runFrom source s.world s.process
    ⟨outcome.answer, outcome.effects, outcome.process.loaded.isSome⟩ ::
      runFrom source ⟨s.world, outcome.process⟩ rest

/-- With the binding's own source, calls of operations are the operations' steps. -/
theorem runFrom_load (s : Session) (ops : List Operation) :
    s.runFrom Loader.load (ops.map .operation) = s.run (ops.map .operation) := by
  induction ops generalizing s with
  | nil => rfl
  | cons o rest ih =>
    rw [List.map_cons, List.map_cons, runFrom, ih, Call.runFrom, Operation.runFrom_load]
    rfl

end Session

namespace Simulation

variable {S : Simulation} {x y : Action Loaded}

theorem Relates.settle {α β : Type} {a b : Action α} {f g : Except Fault α → Action β}
    (h : S.Relates a b) (hf : ∀ answer, S.Relates (f answer) (g answer)) :
    S.Relates (a.settle f) (b.settle g) := by
  intro p q hp
  obtain ⟨ha, hq, he⟩ := h p q hp
  unfold Action.settle
  dsimp only
  rw [← ha]
  obtain ⟨hb, hr, hs⟩ := hf (a S.left p).answer _ _ hq
  exact ⟨hb, hr, S.trans he hs⟩

theorem relates_script (hall : ∀ o : Operation, o.isOwn → S.Relates (o.runFrom x) (o.runFrom y))
    {script : Script} (ho : script.IsOwn) :
    S.Relates (script.runFrom x) (script.runFrom y) := by
  induction script with
  | done result => exact relates_ofExcept result
  | call o next ih => exact (hall o ho.1).settle fun answer => ih answer (ho.2 answer)

/-- If all operations are related for two sources, so are all calls. -/
theorem Supports.call (h : S.Supports)
    (hall : ∀ o : Operation, o.isOwn → S.Relates (o.runFrom x) (o.runFrom y)) {c : Call}
    (ho : c.IsOwn) : S.Relates (c.runFrom x) (c.runFrom y) := by
  cases c with
  | operation o => exact hall o ho
  | verify name factory engine =>
    refine Relates.bind ?_ fun _ => relates_pure _
    refine h.verify name (relates_script hall ho.1) fun descriptor => ?_
    exact (relates_perform (h.engages descriptor)).bind fun _ =>
      relates_script hall (ho.2 descriptor)

end Simulation

end GrammarLoader
