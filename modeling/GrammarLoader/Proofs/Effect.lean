import GrammarLoader.Message
import GrammarLoader.Smoke

/-!
# What actions do

Views of a list of effects: what is looked for, which libraries are opened, which symbols are
called, what the engine is given and which events are logged. Each view of two lists in a row is the
two views in a row. Beside them stand the equations of a sequence of two actions, by what the first
one comes to.
-/

namespace GrammarLoader

namespace Effect

/-- Something that is done to find a library. -/
def isSearch : Effect → Bool
  | checked _ | searched _ => true
  | _ => false

/-- Something that is done to find or open a library. -/
def isLookup : Effect → Bool
  | opened _ => true
  | e => e.isSearch

theorem isLookup_of_isSearch {e : Effect} (h : e.isSearch) : e.isLookup := by
  cases e with
  | checked | searched | opened => rfl
  | called | engaged | logged | kept | wrote => cases h

/-- The path of a library that is opened. -/
def openedPath? : Effect → Option String
  | opened path => some path
  | _ => none

/-- The symbol that is called. -/
def calledSymbol? : Effect → Option Symbol
  | called symbol => some symbol
  | _ => none

/-- The descriptor that the engine is given. -/
def engagedObject? : Effect → Option Object
  | engaged descriptor => some descriptor
  | _ => none

/-- The event that is logged, whether it is written or not. -/
def loggedEvent? : Effect → Option Logging.Event
  | logged event => some event
  | _ => none

end Effect

/-- The paths of the libraries opened. -/
def openedPaths (effects : List Effect) : List String := effects.filterMap Effect.openedPath?

/-- The symbols called. -/
def calledSymbols (effects : List Effect) : List Symbol := effects.filterMap Effect.calledSymbol?

/-- The descriptors given to the engine. -/
def engagedObjects (effects : List Effect) : List Object :=
  effects.filterMap Effect.engagedObject?

/-- The events logged. -/
def loggedEvents (effects : List Effect) : List Logging.Event :=
  effects.filterMap Effect.loggedEvent?

section Views

variable (first second : List Effect)

@[simp] theorem openedPaths_append :
    openedPaths (first ++ second) = openedPaths first ++ openedPaths second :=
  List.filterMap_append

@[simp] theorem calledSymbols_append :
    calledSymbols (first ++ second) = calledSymbols first ++ calledSymbols second :=
  List.filterMap_append

@[simp] theorem engagedObjects_append :
    engagedObjects (first ++ second) = engagedObjects first ++ engagedObjects second :=
  List.filterMap_append

@[simp] theorem loggedEvents_append :
    loggedEvents (first ++ second) = loggedEvents first ++ loggedEvents second :=
  List.filterMap_append

end Views

namespace Action

variable {α β : Type} {x : Action α} {f : α → Action β} {handle : Fault → Action α} {w : World}
  {p : Process}

theorem bind_of_ok {a : α} (h : (x w p).answer = .ok a) :
    (x >>= f) w p = ⟨(f a w (x w p).process).answer, (f a w (x w p).process).process,
      (x w p).effects ++ (f a w (x w p).process).effects⟩ := by
  rw [bind_apply, h]

theorem bind_of_error {fault : Fault} (h : (x w p).answer = .error fault) :
    (x >>= f) w p = ⟨.error fault, (x w p).process, (x w p).effects⟩ := by
  rw [bind_apply, h]

theorem bind_eq_of_ok {a : α} {q : Process} {effects : List Effect}
    (h : x w p = ⟨.ok a, q, effects⟩) :
    (x >>= f) w p = ⟨(f a w q).answer, (f a w q).process, effects ++ (f a w q).effects⟩ := by
  rw [bind_apply, h]

theorem bind_eq_of_error {fault : Fault} {q : Process} {effects : List Effect}
    (h : x w p = ⟨.error fault, q, effects⟩) : (x >>= f) w p = ⟨.error fault, q, effects⟩ := by
  rw [bind_apply, h]

theorem world_bind_apply (f : World → Action β) (w : World) (p : Process) :
    (world >>= f) w p = f w w p := rfl

theorem process_bind_apply (f : Process → Action β) (w : World) (p : Process) :
    (process >>= f) w p = f p w p := rfl

theorem perform_bind_apply (e : Effect) (f : Unit → Action β) (w : World) (p : Process) :
    (perform e >>= f) w p = ⟨(f () w p).answer, (f () w p).process, e :: (f () w p).effects⟩ := rfl

/-- A value worked out of what an action comes to changes the answer alone. -/
theorem bind_pure_apply (x : Action α) (g : α → β) (w : World) (p : Process) :
    (x >>= fun a => Pure.pure (g a)) w p =
      ⟨(x w p).answer.map g, (x w p).process, (x w p).effects⟩ := by
  cases h : (x w p).answer with
  | ok a =>
    rw [bind_of_ok h]
    simp [Except.map]
  | error fault =>
    rw [bind_of_error h]
    rfl

@[simp] theorem ofExcept_apply (r : Except Fault α) (w : World) (p : Process) :
    ofExcept r w p = ⟨r, p, []⟩ := rfl

theorem ofFailure_of_ok {r : Except Failure α} {a : α} (h : r = .ok a) :
    ofFailure r w p = ⟨.ok a, p, []⟩ := by
  rw [h]
  rfl

theorem ofFailure_of_error {r : Except Failure α} {f : Failure} (h : r = .error f) :
    ofFailure r w p = ⟨.error ↑f, p, []⟩ := by
  rw [h]
  rfl

theorem orRecover_of_ok {a : α} (h : (x w p).answer = .ok a) :
    x.orRecover handle w p = ⟨.ok a, (x w p).process, (x w p).effects⟩ := by
  unfold orRecover
  dsimp only
  rw [h]

theorem orRecover_of_ordinary {fault : Fault} (h : (x w p).answer = .error fault)
    (ho : fault.failure.isOrdinary) :
    x.orRecover handle w p =
      ⟨(handle fault w (x w p).process).answer, (handle fault w (x w p).process).process,
        (x w p).effects ++ (handle fault w (x w p).process).effects⟩ := by
  unfold orRecover
  dsimp only
  rw [h]
  exact if_pos ho

theorem orRecover_of_not_ordinary {fault : Fault} (h : (x w p).answer = .error fault)
    (ho : fault.failure.isOrdinary = false) :
    x.orRecover handle w p = ⟨.error fault, (x w p).process, (x w p).effects⟩ := by
  unfold orRecover
  dsimp only
  rw [h]
  exact if_neg (by simp [ho])

theorem configureLogging_apply (level format : Value) (w : World) (p : Process) :
    configureLogging level format w p = match Logging.Setup.make w.settings level format with
      | .ok setup => ⟨.ok (), { p with logging := some setup }, []⟩
      | .error f => ⟨.error ↑f, p, []⟩ := by
  unfold configureLogging
  cases hm : Logging.Setup.make w.settings level format with
  | ok setup =>
    rw [world_bind_apply, bind_eq_of_ok (ofFailure_of_ok hm)]
    rfl
  | error f => rw [world_bind_apply, bind_eq_of_error (ofFailure_of_error hm)]

end Action

/-- A message is passed over, or makes no event, or logs the event that it makes. -/
theorem Message.log_cases (m : Message) (w : World) (p : Process) :
    m.log w p = ⟨.ok (), p, []⟩ ∨
    (∃ f, m.event? = .error f ∧ m.log w p = ⟨.error ↑f, p, []⟩) ∨
    ∃ e, m.event? = .ok e ∧ m.log w p = Action.log e w p := by
  have hlog : (∃ f, m.event? = .error f ∧
      (Action.ofFailure m.event? >>= Action.log) w p = ⟨.error ↑f, p, []⟩) ∨
      ∃ e, m.event? = .ok e ∧
        (Action.ofFailure m.event? >>= Action.log) w p = Action.log e w p := by
    cases hm : m.event? with
    | error f => exact .inl ⟨f, rfl, Action.bind_eq_of_error (Action.ofFailure_of_error rfl)⟩
    | ok e => exact .inr ⟨e, rfl, Action.bind_eq_of_ok (Action.ofFailure_of_ok rfl)⟩
  unfold log
  rw [Action.process_bind_apply]
  cases p.logging <;> dsimp only <;> split <;> first | exact .inl rfl | exact .inr hlog

end GrammarLoader
