import GrammarLoader.Proofs.Loader.Source

/-!
# Traces of sessions

The session after some steps, and what a view of each step shows over a whole run: libraries opened,
events logged, libraries loaded. The steps of others, who log messages of their own and bind entries
to the context of the log, are told apart from those of the binding and the changes of the world.
-/

namespace GrammarLoader

/-- Changes of the world and operations of the binding. -/
def Step.isOwn : Step → Bool
  | operation o => o.isOwn
  | change _ => true

/-- A state of the process to which the binding's own operations lead, whatever the worlds that they
are run in. -/
inductive Process.Reachable : Process → Prop
  | start : Reachable {}
  | operation {p : Process} (h : p.Reachable) (w : World) {o : Operation} (ho : o.isOwn) :
    Reachable (o.run w p).process

/-- No change moves the package or the clock. -/
theorem Change.keeps_of_apply (c : Change) {w w' : World} (h : c.apply w = .ok w') :
    w'.packageDirectory = w.packageDirectory ∧ w'.now = w.now := by
  cases c with
  | assign field v =>
    have hassigned : (w.settings.assign field v).map (fun s => { w with settings := s }) =
        .ok w' := h
    cases ha : w.settings.assign field v with
    | ok settings =>
      rw [ha] at hassigned
      cases hassigned
      exact ⟨rfl, rfl⟩
    | error f =>
      rw [ha] at hassigned
      cases hassigned
  | _ =>
    cases h
    exact ⟨rfl, rfl⟩

namespace Session

/-- The session at the start of a process. -/
def start (w : World) : Session := ⟨w, {}⟩

/-- The session after steps. -/
def after (s : Session) (steps : List Step) : Session :=
  steps.foldl (fun s st => (s.step st).1) s

@[simp] theorem after_nil (s : Session) : s.after [] = s := rfl

@[simp] theorem after_cons (s : Session) (st : Step) (rest : List Step) :
    s.after (st :: rest) = (s.step st).1.after rest := rfl

/-- What a view of a step shows over a run. -/
def trace {β : Type} (view : Session → Step → List β) : Session → List Step → List β
  | _, [] => []
  | s, st :: rest => view s st ++ trace view (s.step st).1 rest

/-- The effects of a step. -/
def effects (s : Session) (st : Step) : List Effect := (s.step st).2.effects

@[simp] theorem step_operation_process (s : Session) (o : Operation) :
    (s.step (.operation o)).1.process = (o.run s.world s.process).process := rfl

@[simp] theorem effects_operation (s : Session) (o : Operation) :
    s.effects (.operation o) = (o.run s.world s.process).effects := rfl

theorem step_change_of_ok {s : Session} {c : Change} {w : World} (h : c.apply s.world = .ok w) :
    s.step (.change c) = (⟨w, s.process⟩, ⟨.ok .nothing, [], s.process.loaded.isSome⟩) := by
  simp only [step, h]

theorem step_change_of_error {s : Session} {c : Change} {f : Failure}
    (h : c.apply s.world = .error f) :
    s.step (.change c) = (s, ⟨.error f, [], s.process.loaded.isSome⟩) := by
  simp only [step, h]

@[simp] theorem effects_change (s : Session) (c : Change) : s.effects (.change c) = [] := by
  simp only [effects, step]
  split <;> rfl

/-- No step moves the package or the clock. -/
theorem keeps_step (s : Session) (st : Step) :
    (s.step st).1.world.packageDirectory = s.world.packageDirectory ∧
      (s.step st).1.world.now = s.world.now := by
  cases st with
  | operation o => exact ⟨rfl, rfl⟩
  | change c =>
    simp only [step]
    split
    · rename_i hc
      exact c.keeps_of_apply hc
    · exact ⟨rfl, rfl⟩

end Session

end GrammarLoader
