import GrammarLoader.World

/-!
# Actions

An action runs in a world, on the state of the process, and comes to a value or a fault. What it
does on the way is kept as a list of effects, also when it ends in a fault.
-/

namespace GrammarLoader

/-- A parser library that is open. -/
structure Loaded where
  path : String
  symbol : Symbol

/-- What the process remembers. -/
structure Process where
  /-- The parser library, once it is loaded. -/
  loaded : Option Loaded := none
  /-- How events are written, once logging is configured. -/
  logging : Option Logging.Setup := none
  /-- Entries that are added to every event written. -/
  context : Entries := []

/-- Something that an action does. -/
inductive Effect where
  /-- A path is checked for a file. -/
  | checked (path : String)
  /-- A library is opened, or an attempt made. -/
  | opened (path : String)
  /-- The system searches for a library. -/
  | searched (name : String)
  /-- A symbol is called. -/
  | called (symbol : Symbol)
  /-- The engine is given a descriptor. -/
  | engaged (descriptor : Object)
  /-- An event is logged, whether it is written or not. -/
  | logged (event : Logging.Event)
  /-- An event is kept, since logging is not configured yet. -/
  | kept (event : Logging.Event)
  /-- A line is written to the log. -/
  | wrote (line : String)

/-- What an action comes to. -/
structure Outcome (α : Type) where
  answer : Except Fault α
  process : Process
  effects : List Effect := []

/-- Something to run in a world, on the state of the process. -/
def Action (α : Type) := World → Process → Outcome α

namespace Action

/-- Comes to a value and does nothing. -/
def pure {α : Type} (a : α) : Action α := fun _ p => ⟨.ok a, p, []⟩

/-- Runs an action and then another one on its value. -/
def bind {α β : Type} (x : Action α) (f : α → Action β) : Action β := fun w p =>
  let first := x w p
  match first.answer with
  | .ok a =>
    let second := f a w first.process
    ⟨second.answer, second.process, first.effects ++ second.effects⟩
  | .error fault => ⟨.error fault, first.process, first.effects⟩

instance : Monad Action where
  pure := pure
  bind := bind

/-- Comes to a fault. -/
def fail {α : Type} (f : Fault) : Action α := fun _ p => ⟨.error f, p, []⟩

/-- Comes to what a computation gives. -/
def ofExcept {α : Type} (r : Except Fault α) : Action α := fun _ p => ⟨r, p, []⟩

/-- Comes to what a computation gives, its failure having no cause. -/
def ofFailure {α : Type} (r : Except Failure α) : Action α := ofExcept (r.mapError (⟨·, []⟩))

/-- Comes to the world. -/
def world : Action World := fun w p => ⟨.ok w, p, []⟩

/-- Comes to the state of the process. -/
def process : Action Process := fun _ p => ⟨.ok p, p, []⟩

/-- Changes the state of the process. -/
def modify (f : Process → Process) : Action Unit := fun _ p => ⟨.ok (), f p, []⟩

/-- Does something. -/
def perform (e : Effect) : Action Unit := fun _ p => ⟨.ok (), p, [e]⟩

/-- Runs an action, and another one on its fault if the fault may be answered. -/
def orRecover {α : Type} (x : Action α) (handle : Fault → Action α) : Action α := fun w p =>
  let first := x w p
  match first.answer with
  | .ok a => ⟨.ok a, first.process, first.effects⟩
  | .error fault =>
    if fault.failure.isOrdinary then
      let second := handle fault w first.process
      ⟨second.answer, second.process, first.effects ++ second.effects⟩
    else ⟨.error fault, first.process, first.effects⟩

/-- Runs an action and turns its fault into another one. -/
def mapFault {α : Type} (x : Action α) (f : Fault → Fault) : Action α := fun w p =>
  let first := x w p
  ⟨first.answer.mapError f, first.process, first.effects⟩

@[simp] theorem pure_apply {α : Type} (a : α) (w : World) (p : Process) :
    (Pure.pure a : Action α) w p = ⟨.ok a, p, []⟩ := rfl

theorem bind_apply {α β : Type} (x : Action α) (f : α → Action β) (w : World) (p : Process) :
    (x >>= f) w p = match (x w p).answer with
      | .ok a =>
        ⟨(f a w (x w p).process).answer, (f a w (x w p).process).process,
          (x w p).effects ++ (f a w (x w p).process).effects⟩
      | .error fault => ⟨.error fault, (x w p).process, (x w p).effects⟩ := rfl

instance : LawfulMonad Action := LawfulMonad.mk' Action
  (by
    intro α x
    funext w p
    show (x >>= fun a => Pure.pure a) w p = x w p
    rw [bind_apply]
    rcases h : x w p with ⟨_ | _, _, _⟩ <;> simp)
  (by intro α β a f; funext w p; rw [bind_apply]; simp)
  (by
    intro α β γ x f g
    funext w p
    simp only [bind_apply]
    rcases x w p with ⟨_ | a, q, es⟩
    · rfl
    · simp only
      rcases f a w q with ⟨_ | b, r, fs⟩ <;> simp)

/-- Logs an event. Before logging is configured the event is kept; after that it is written if its
level reaches the threshold. -/
def log (e : Logging.Event) : Action Unit := fun w p =>
  match p.logging with
  | none => ⟨.ok (), p, [.logged e, .kept e]⟩
  | some setup =>
    if e.level.number < setup.threshold then ⟨.ok (), p, [.logged e]⟩
    else match setup.style.line (e.record p.context w.now) with
      | .ok line => ⟨.ok (), p, [.logged e, .wrote line]⟩
      | .error f => ⟨.error f, p, [.logged e]⟩

/-- `configure_logging`: configures logging from a level and a format, either of which may be left
to the settings. -/
def configureLogging (level format : Value) : Action Unit := do
  let setup ← ofFailure (Logging.Setup.make (← world).settings level format)
  modify (fun p => { p with logging := some setup })

end Action

end GrammarLoader
