import GrammarLoader.Proofs.Loader.Calls
import GrammarLoader.Proofs.Session.Client
import Mathlib.Data.List.Forall2

/-!
# Remembering the library cannot be observed

In a world that stays as it is, the library that is remembered is the one that would be loaded now.
A binding that loads anew every time differs by its loads, and by nothing else: every call comes to
the same answer, calls the same symbols and gives the engine the same descriptors.
-/

namespace GrammarLoader

/-- With the same logging and the same context an event is logged in the same way. -/
theorem Action.log_congr (e : Logging.Event) (w : World) {p q : Process}
    (hl : p.logging = q.logging) (hc : p.context = q.context) :
    (log e w p).answer = (log e w q).answer ∧ (log e w p).effects = (log e w q).effects := by
  unfold log
  rw [hl, hc]
  split
  · exact ⟨rfl, rfl⟩
  · split
    · exact ⟨rfl, rfl⟩
    · split <;> exact ⟨rfl, rfl⟩

namespace Simulation

/-- The simulation of states in which events are logged in the same way. -/
def sameLog (w : World) : Simulation where
  left := w
  right := w
  together := fun p q => p.logging = q.logging ∧ p.context = q.context
  passes := fun _ _ _ _ a b => a = b
  stay := fun _ => rfl
  trans := by
    rintro _ _ _ _ _ _ _ _ _ _ rfl rfl
    rfl

theorem sameLog_relates_log {w : World} (e : Logging.Event) :
    (sameLog w).Relates (Action.log e) (Action.log e) := by
  intro p q hp
  obtain ⟨ha, he⟩ := Action.log_congr e w hp.1 hp.2
  refine ⟨ha, ?_, he⟩
  show (Action.log e w p).process.logging = (Action.log e w q).process.logging ∧
    (Action.log e w p).process.context = (Action.log e w q).process.context
  rw [Action.log_process, Action.log_process]
  exact hp

end Simulation

/-- What a load does depends on how events are logged, not on what is loaded. -/
theorem Loader.loadAnew_effects_congr (w : World) {p q : Process} (hl : p.logging = q.logging)
    (hc : p.context = q.context) : (loadAnew w p).effects = (loadAnew w q).effects := by
  have h := Simulation.relates_loadAnew (S := .sameLog w) (.refl w) (fun _ _ _ _ _ => rfl)
    (fun path => Simulation.sameLog_relates_log (loadedEvent path))
  exact (h p q ⟨hl, hc⟩).passes

/-- A process in which every event can be written and what is loaded is what would be loaded now. -/
structure Process.Steady (w : World) (p : Process) : Prop where
  context : p.context = []
  fresh : ∀ l, p.loaded = some l → (Loader.loadAnew w {}).answer = .ok l

theorem Process.Steady.of_empty {w : World} {p : Process} (hc : p.context = [])
    (hl : p.loaded = none) : p.Steady w := by
  refine ⟨hc, ?_⟩
  intro l h
  rw [hl] at h
  cases h

namespace Simulation

variable {w : World}

/-- The simulation of steady processes, whatever they have logged or loaded. -/
def steady (w : World) : Simulation where
  left := w
  right := w
  together := fun p q => p.Steady w ∧ q.Steady w
  passes := fun _ _ _ _ _ _ => True
  stay := fun _ => trivial
  trans := fun _ _ => trivial

theorem steady_relates_log {e : Logging.Event} (he : e.IsPlain) :
    (steady w).Relates (Action.log e) (Action.log e) := by
  intro p q hpq
  obtain ⟨hp, hq⟩ := hpq
  refine ⟨?_, ?_, trivial⟩
  · show (Action.log e w p).answer = (Action.log e w q).answer
    rw [Action.log_answer w p he, Action.log_answer w q he, p.obstacle_of_context_nil hp.context,
      q.obstacle_of_context_nil hq.context]
  · show (Action.log e w p).process.Steady w ∧ (Action.log e w q).process.Steady w
    rw [Action.log_process, Action.log_process]
    exact ⟨hp, hq⟩

theorem steady_relates_loadAnew : (steady w).Relates Loader.loadAnew Loader.loadAnew :=
  relates_loadAnew (.refl w) (fun _ _ _ _ _ => trivial) fun path =>
    steady_relates_log (Loader.loadedEvent_isPlain path)

/-- In a steady process loading comes to what it comes to at the start, and keeps it steady. -/
theorem load_of_steady {p : Process} (hp : p.Steady w) :
    (Loader.load w p).answer = (Loader.loadAnew w {}).answer ∧
      (Loader.load w p).process.Steady w := by
  cases hl : p.loaded with
  | some l =>
    rw [Loader.load_of_loaded hl]
    exact ⟨(hp.fresh l hl).symm, hp⟩
  | none =>
    have hanew : (Loader.loadAnew w p).answer = (Loader.loadAnew w {}).answer :=
      (steady_relates_loadAnew p {} ⟨hp, Process.Steady.of_empty rfl rfl⟩).answer
    cases ha : (Loader.loadAnew w p).answer with
    | ok l =>
      -- the process is steady because the load that is remembered is the one just made
      rw [Loader.load_of_ok hl ha]
      refine ⟨ha.symm.trans hanew, hp.context, ?_⟩
      intro m hm
      cases hm
      exact hanew.symm.trans ha
    | error fault =>
      rw [Loader.load_of_error hl ha]
      exact ⟨ha.symm.trans hanew, hp⟩

theorem steady_relates_load : (steady w).Relates Loader.load Loader.load := by
  intro p q hpq
  obtain ⟨hanswer, hp⟩ := load_of_steady hpq.1
  obtain ⟨hanswer', hq⟩ := load_of_steady hpq.2
  exact ⟨hanswer.trans hanswer'.symm, ⟨hp, hq⟩, trivial⟩

theorem steady_supports (w : World) : (steady w).Supports where
  calls _ := fun _ _ _ => trivial
  engages _ := fun _ _ _ => trivial
  engine := rfl
  logs _ he := steady_relates_log he.isPlain
  configures level format := by
    refine ((relates_world rfl).bind fun _ => relates_ofFailure _).bind fun setup => ?_
    apply relates_modify
    intro p q hpq
    exact ⟨⟨⟨hpq.1.context, hpq.1.fresh⟩, hpq.2.context, hpq.2.fresh⟩, trivial⟩

theorem steady_relates_own {o : Operation} (ho : o.isOwn) :
    (steady w).Relates (o.runFrom Loader.load) (o.runFrom Loader.load) := by
  refine (steady_supports w).anyOwn (.refl w) steady_relates_load ho (fun _ _ _ _ _ => trivial)
    (fun _ => Supports.settings rfl) ?_ ?_
  · -- what is not loaded is steady
    refine Relates.bind (relates_modify ?_) fun _ => relates_pure _
    intro p q hpq
    exact ⟨⟨.of_empty hpq.1.context rfl, .of_empty hpq.2.context rfl⟩, trivial⟩
  · refine Relates.bind (relates_modify ?_) fun _ => relates_pure _
    intro p q hpq
    exact ⟨⟨⟨rfl, hpq.1.fresh⟩, rfl, hpq.2.fresh⟩, trivial⟩

end Simulation

/-- The second list has what the first one has, in the same order, and loads in between. -/
inductive Padded (w : World) : List Effect → List Effect → Prop
  | nil : Padded w [] []
  | both (e : Effect) {a b : List Effect} (h : Padded w a b) : Padded w (e :: a) (e :: b)
  | reload (q : Process) {a b : List Effect} (h : Padded w a b) :
    Padded w a ((Loader.loadAnew w q).effects ++ b)

namespace Padded

variable {w : World}

theorem refl (a : List Effect) : Padded w a a := by
  induction a with
  | nil => exact .nil
  | cons e rest ih => exact .both e ih

theorem append {a b c d : List Effect} (h : Padded w a b) (h' : Padded w c d) :
    Padded w (a ++ c) (b ++ d) := by
  induction h with
  | nil => exact h'
  | both e _ ih => exact .both e ih
  | reload q _ ih =>
    rw [List.append_assoc]
    exact .reload q ih

theorem calledSymbols_eq {a b : List Effect} (h : Padded w a b) :
    calledSymbols a = calledSymbols b := by
  induction h with
  | nil => rfl
  | both e _ ih =>
    rw [← List.singleton_append, calledSymbols_append, ih, ← calledSymbols_append,
      List.singleton_append]
  | reload q _ ih => rw [calledSymbols_append, Loader.calledSymbols_loadAnew, List.nil_append, ih]

theorem engagedObjects_eq {a b : List Effect} (h : Padded w a b) :
    engagedObjects a = engagedObjects b := by
  induction h with
  | nil => rfl
  | both e _ ih =>
    rw [← List.singleton_append, engagedObjects_append, ih, ← engagedObjects_append,
      List.singleton_append]
  | reload q _ ih => rw [engagedObjects_append, Loader.engagedObjects_loadAnew, List.nil_append, ih]

end Padded

namespace Simulation

variable {w : World}

/-- The simulation of a binding that remembers the library by one that loads it anew. -/
def reloading (w : World) : Simulation where
  left := w
  right := w
  together := fun p q => p.logging = q.logging ∧ p.Steady w ∧ q.Steady w
  passes := fun _ _ _ _ a b => Padded w a b
  stay := fun _ => .nil
  trans := fun h h' => h.append h'

theorem reloading_allows (e : Effect) : (reloading w).Allows e :=
  fun _ _ _ => .refl [e]

theorem reloading_relates_log (e : Logging.Event) :
    (reloading w).Relates (Action.log e) (Action.log e) := by
  intro p q hpq
  obtain ⟨hl, hp, hq⟩ := hpq
  obtain ⟨ha, he⟩ := Action.log_congr e w hl (hp.context.trans hq.context.symm)
  refine ⟨ha, ?_, ?_⟩
  · show (reloading w).together (Action.log e w p).process (Action.log e w q).process
    rw [Action.log_process, Action.log_process]
    exact ⟨hl, hp, hq⟩
  · show Padded w (Action.log e w p).effects (Action.log e w q).effects
    rw [he]
    exact .refl _

theorem reloading_supports (w : World) : (reloading w).Supports where
  calls _ := reloading_allows _
  engages _ := reloading_allows _
  engine := rfl
  logs e _ := reloading_relates_log e
  configures level format := by
    refine ((relates_world rfl).bind fun _ => relates_ofFailure _).bind fun setup => ?_
    apply relates_modify
    intro p q hpq
    obtain ⟨-, hp, hq⟩ := hpq
    exact ⟨⟨rfl, ⟨hp.context, hp.fresh⟩, hq.context, hq.fresh⟩, .nil⟩

/-- The one place where the two differ. -/
theorem reloading_relates_load : (reloading w).Relates Loader.load Loader.loadAnew := by
  intro p q hpq
  obtain ⟨hlog, hp, hq⟩ := hpq
  obtain ⟨hanswer, hsteady⟩ := load_of_steady hp
  have hanew := (steady_relates_loadAnew q {} ⟨hq, .of_empty rfl rfl⟩).answer
  refine ⟨hanswer.trans hanew.symm, ?_, ?_⟩
  · show (reloading w).together (Loader.load w p).process (Loader.loadAnew w q).process
    rw [Loader.loadAnew_process]
    obtain ⟨loaded, hload⟩ := Loader.load_process w p
    rw [hload] at hsteady ⊢
    exact ⟨hlog, hsteady, hq⟩
  · show Padded w (Loader.load w p).effects (Loader.loadAnew w q).effects
    cases hl : p.loaded with
    | some l =>
      -- the library is remembered on the left and loaded again on the right
      rw [Loader.load_of_loaded hl, ← List.append_nil (Loader.loadAnew w q).effects]
      exact .reload q .nil
    | none =>
      rw [Loader.load_effects_of_none hl,
        Loader.loadAnew_effects_congr w hlog (hp.context.trans hq.context.symm)]
      exact .refl _

theorem reloading_relates_own {o : Operation} (ho : o.isOwn) :
    (reloading w).Relates (o.runFrom Loader.load) (o.runFrom Loader.loadAnew) := by
  refine (reloading_supports w).anyOwn (.refl w) reloading_relates_load ho
    (fun _ _ => reloading_allows _) (fun _ => Supports.settings rfl) ?_ ?_
  · refine Relates.bind (relates_modify ?_) fun _ => relates_pure _
    intro p q hpq
    obtain ⟨hlog, hp, hq⟩ := hpq
    exact ⟨⟨hlog, .of_empty hp.context rfl, .of_empty hq.context rfl⟩, .nil⟩
  · refine Relates.bind (relates_modify ?_) fun _ => relates_pure _
    intro p q hpq
    obtain ⟨hlog, hp, hq⟩ := hpq
    exact ⟨⟨hlog, ⟨rfl, hp.fresh⟩, rfl, hq.fresh⟩, .nil⟩

end Simulation

/-- Reports that differ in how the library is come by, and in nothing else. -/
structure Report.Agrees (w : World) (remembered reloaded : Report) : Prop where
  answer : remembered.answer = reloaded.answer
  calls : calledSymbols remembered.effects = calledSymbols reloaded.effects
  engaged : engagedObjects remembered.effects = engagedObjects reloaded.effects
  padded : Padded w remembered.effects reloaded.effects

namespace Session

variable {w : World} {calls : List Call}

theorem runFrom_agrees (ho : ∀ c ∈ calls, c.IsOwn) {p q : Process}
    (hpq : (Simulation.reloading w).together p q) :
    List.Forall₂ (Report.Agrees w) (runFrom Loader.load ⟨w, p⟩ calls)
      (runFrom Loader.loadAnew ⟨w, q⟩ calls) := by
  induction calls generalizing p q with
  | nil => exact .nil
  | cons c rest ih =>
    have hcall := (Simulation.reloading_supports w).call
      (fun _ => Simulation.reloading_relates_own) (ho c List.mem_cons_self)
    obtain ⟨ha, hnext, he⟩ := hcall p q hpq
    refine .cons ⟨ha, he.calledSymbols_eq, he.engagedObjects_eq, he⟩ ?_
    exact ih (fun c' h => ho c' (List.mem_cons_of_mem _ h)) hnext

theorem runFrom_answers (ho : ∀ c ∈ calls, c.IsOwn) {p : Process} (hp : p.Steady w) :
    List.Forall₂ (fun c r => r.answer = (c.runFrom Loader.load w {}).answer) calls
      (runFrom Loader.load ⟨w, p⟩ calls) := by
  induction calls generalizing p with
  | nil => exact .nil
  | cons c rest ih =>
    have hcall := (Simulation.steady_supports w).call
      (fun _ => Simulation.steady_relates_own) (ho c List.mem_cons_self)
    obtain ⟨ha, hnext, -⟩ := hcall p {} ⟨hp, .of_empty rfl rfl⟩
    exact .cons ha (ih (fun c' h => ho c' (List.mem_cons_of_mem _ h)) hnext.1)

/-- In a world that stays as it is, no sequence of calls tells a binding that remembers the library
from one that loads it anew each time, and what a call comes to does not depend on the calls before
it. -/
theorem remembering_unobservable (w : World) (calls : List Call) (ho : ∀ c ∈ calls, c.IsOwn) :
    List.Forall₂ (Report.Agrees w) ((start w).runFrom Loader.load calls)
      ((start w).runFrom Loader.loadAnew calls) ∧
    List.Forall₂ (fun c r => r.answer = (c.runFrom Loader.load w {}).answer) calls
      ((start w).runFrom Loader.load calls) ∧
    ∀ ops : List Operation, calls = ops.map .operation →
      (start w).runFrom Loader.load calls = (start w).run (ops.map .operation) := by
  have hstart : ({} : Process).Steady w := .of_empty rfl rfl
  refine ⟨runFrom_agrees ho ⟨rfl, hstart, hstart⟩, runFrom_answers ho hstart, ?_⟩
  rintro ops rfl
  exact runFrom_load _ ops

/-- The factory of the check forgets the library and asks for a descriptor itself. -/
theorem remembering_unobservable_forgetful :
    let factory : Script := .call .forget fun _ => .call .language fun answer =>
      match answer with
      | .ok (.object descriptor) => .done (.ok descriptor)
      | .ok _ => .done (.ok .null)
      | .error fault => .done (.error fault)
    let calls : List Call := [.operation .language, .operation .libraryPath,
      .verify (.str "KPL") factory fun descriptor => .done (Behaviour.languageOf descriptor),
      .operation .smoke]
    let s := start (.naming (.exporting [Loader.symbolName]))
    List.Forall₂ (Report.Agrees s.world) (s.runFrom Loader.load calls)
      (s.runFrom Loader.loadAnew calls) ∧
    (s.runFrom Loader.load calls).map (fun r => openedPaths r.effects) =
      [["/kpl.so"], [], ["/kpl.so"], []] ∧
    (s.runFrom Loader.loadAnew calls).map (fun r => openedPaths r.effects) =
      [["/kpl.so"], ["/kpl.so"], ["/kpl.so"], ["/kpl.so"]] := by
  intro factory calls s
  have hfactory : factory.IsOwn := by
    refine ⟨rfl, fun _ => ⟨rfl, fun answer => ?_⟩⟩
    dsimp only
    split <;> trivial
  have ho : ∀ c ∈ calls, c.IsOwn := by
    simp only [calls, List.forall_mem_cons]
    exact ⟨rfl, rfl, ⟨hfactory, fun _ => trivial⟩, rfl, by simp⟩
  refine ⟨?_, by decide +kernel, by decide +kernel⟩
  exact (remembering_unobservable (.naming (.exporting [Loader.symbolName])) calls ho).1

end Session

end GrammarLoader
