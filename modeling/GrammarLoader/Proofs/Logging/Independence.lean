import GrammarLoader.Proofs.Loader.Tame
import GrammarLoader.Proofs.Logging.Configuration
import Mathlib.Data.List.Forall2

/-!
# The log does not reach back

Two versions of a run that differ in what the settings say about the log, in the clock and in the
arguments of calls that configure logging differ in what becomes of the events logged, and in
nothing else. Every operation of the binding comes to the same in both, does the same and logs the
same events, and the library that is loaded after it is the same.
-/

namespace GrammarLoader

/-- Something that becomes of an event once it is logged. -/
def Effect.isOutput : Effect → Bool
  | kept _ | wrote _ => true
  | _ => false

/-- The effects, but for what becomes of the events logged. -/
def unwritten (effects : List Effect) : List Effect := effects.filter fun e => !e.isOutput

theorem unwritten_append (first second : List Effect) :
    unwritten (first ++ second) = unwritten first ++ unwritten second :=
  List.filter_append ..

theorem unwritten_log (e : Logging.Event) (w : World) (p : Process) :
    unwritten (Action.log e w p).effects = [.logged e] := by
  obtain h | h | ⟨line, h⟩ := Action.log_effects e w p <;> rw [h] <;> rfl

/-- The same effects log the same events. -/
theorem loggedEvents_of_unwritten {a b : List Effect} (h : unwritten a = unwritten b) :
    loggedEvents a = loggedEvents b := by
  have hlogged (effects : List Effect) :
      loggedEvents (unwritten effects) = loggedEvents effects := by
    rw [loggedEvents, unwritten, List.filterMap_filter]
    refine List.filterMap_congr fun e _ => ?_
    cases e <;> rfl
  rw [← hlogged a, h, hlogged]

namespace Settings

/-- A level that valid settings may have. -/
def IsLevel (v : Value) : Prop := ∃ name ∈ levelNames, v = .str name

/-- Values between which a field may differ if nothing but the log is to notice: any formats, and
levels that valid settings may have. -/
def Varies (f : Field) (v v' : Value) : Prop :=
  v = v' ∨ f = .logFormat ∨ f = .logLevel ∧ IsLevel v ∧ IsLevel v'

/-- Settings that differ in what they say about the log. -/
structure SameButLog (s s' : Settings) : Prop where
  fields : ∀ f, Varies f (s.get f) (s'.get f)
  explicit : ∀ f, f ≠ .logLevel → f ≠ .logFormat → (f ∈ s.explicit ↔ f ∈ s'.explicit)

namespace SameButLog

variable {s s' : Settings}

theorem get_eq (h : s.SameButLog s') {f : Field} (hl : f ≠ .logLevel) (hm : f ≠ .logFormat) :
    s.get f = s'.get f := by
  obtain hv | hv | ⟨hv, -⟩ := h.fields f
  · exact hv
  · exact absurd hv hm
  · exact absurd hv hl

theorem logLevel (h : s.SameButLog s') :
    s.logLevel = s'.logLevel ∨ IsLevel s.logLevel ∧ IsLevel s'.logLevel := by
  obtain hv | hv | ⟨-, hv⟩ := h.fields .logLevel
  · exact .inl hv
  · cases hv
  · exact .inr hv

/-- Assigning a field fails on both sides or keeps them alike. -/
theorem assign (h : s.SameButLog s') (name : String) {v v' : Value}
    (hv : ∀ f, Field.named? name = some f → Varies f v v') :
    (∃ t t', s.assign name v = .ok t ∧ s'.assign name v' = .ok t' ∧ t.SameButLog t') ∨
      ∃ f, s.assign name v = .error f ∧ s'.assign name v' = .error f := by
  unfold Settings.assign
  cases hf : Field.named? name with
  | none => exact .inr ⟨_, rfl, rfl⟩
  | some f =>
    refine .inl ⟨_, _, rfl, rfl, fun g => ?_, fun g hl hm => ?_⟩
    · by_cases hg : g = f
      · subst hg
        show Varies g ((s.put g v).get g) ((s'.put g v').get g)
        rw [get_put_self, get_put_self]
        exact hv g hf
      · show Varies g ((s.put f v).get g) ((s'.put f v').get g)
        rw [get_put_of_ne s v hg, get_put_of_ne s' v' hg]
        exact h.fields g
    · simp only [List.mem_filter, Field.mem_all, true_and, Bool.or_eq_true, List.contains_iff_mem,
        h.explicit g hl hm]

end SameButLog

end Settings

namespace Logging.Setup

variable {s s' : Settings}

/-- A level that valid settings may have makes a setup, wherever it comes from. -/
theorem make_of_isLevel {level : Value} (h : Settings.IsLevel (orElse level s.logLevel))
    (format : Value) : ∃ setup, make s level format = .ok setup := by
  obtain ⟨name, hname, hlevel⟩ := h
  obtain ⟨n, hn⟩ := Option.isSome_iff_exists.mp (threshold?_of_mem_levelNames name hname)
  unfold make
  rw [hlevel]
  simp [hn]

/-- Whether a setup can be made, and the error if not, does not depend on what may differ. -/
theorem make_sameButLog (h : s.SameButLog s') (level format : Value) :
    (∃ a b, make s level format = .ok a ∧ make s' level format = .ok b) ∨
      ∃ f, make s level format = .error f ∧ make s' level format = .error f := by
  have hchosen : orElse level s.logLevel = orElse level s'.logLevel ∨
      Settings.IsLevel (orElse level s.logLevel) ∧ Settings.IsLevel (orElse level s'.logLevel) := by
    unfold orElse
    split
    · exact .inl rfl
    · exact h.logLevel
  obtain heq | ⟨hl, hr⟩ := hchosen
  · unfold make
    rw [heq]
    split
    · split
      · exact .inl ⟨_, _, rfl, rfl⟩
      · exact .inr ⟨_, rfl, rfl⟩
    · exact .inr ⟨_, rfl, rfl⟩
  · obtain ⟨a, ha⟩ := make_of_isLevel hl format
    obtain ⟨b, hb⟩ := make_of_isLevel hr format
    exact .inl ⟨a, b, ha, hb⟩

end Logging.Setup

/-- Worlds that differ in what the settings say about the log and in the clock. -/
structure World.SameButLog (w w' : World) : Prop where
  settings : w.settings.SameButLog w'.settings
  around : w' = { w with settings := w'.settings, now := w'.now }

namespace World.SameButLog

variable {w w' : World}

theorem refl (w : World) : w.SameButLog w := ⟨⟨fun _ => .inl rfl, fun _ _ _ => .rfl⟩, rfl⟩

theorem engine (h : w.SameButLog w') : w.engine = w'.engine := (congrArg World.engine h.around).symm

theorem loadsAs (h : w.SameButLog w') : w.LoadsAs w' where
  library := h.settings.get_eq (f := .library) nofun nofun
  searchPath := h.settings.get_eq (f := .searchPath) nofun nofun
  packageDirectory := (congrArg packageDirectory h.around).symm
  platform := (congrArg platform h.around).symm
  directory := (congrArg directory h.around).symm
  files := (congrArg files h.around).symm
  homes := (congrArg homes h.around).symm
  systemLibraries := (congrArg systemLibraries h.around).symm
  libraries := (congrArg libraries h.around).symm

end World.SameButLog

theorem Field.named?_name (f : Field) : named? f.name = some f := by cases f <;> decide

/-- Changes between which two versions of a run may differ. -/
inductive Change.Varies : Change → Change → Prop
  | same (c : Change) : Varies c c
  | assign {f : Field} {v v' : Value} (h : Settings.Varies f v v') :
    Varies (.assign f.name v) (.assign f.name v')

theorem World.SameButLog.assign {w w' : World} (h : w.SameButLog w') (name : String) {v v' : Value}
    (hv : ∀ f, Field.named? name = some f → Settings.Varies f v v') :
    (∃ u u', (Change.assign name v).apply w = .ok u ∧ (Change.assign name v').apply w' = .ok u' ∧
      u.SameButLog u') ∨
    ∃ f, (Change.assign name v).apply w = .error f ∧
      (Change.assign name v').apply w' = .error f := by
  obtain ⟨hs, hw⟩ := h
  obtain ⟨t, t', ht, ht', hnext⟩ | ⟨f, hf, hf'⟩ := hs.assign name hv
  · refine .inl ⟨{ w with settings := t }, { w' with settings := t' }, ?_, ?_, hnext, ?_⟩
    · exact congrArg (Except.map fun s => { w with settings := s }) ht
    · exact congrArg (Except.map fun s => { w' with settings := s }) ht'
    · rw [hw]
  · refine .inr ⟨f, ?_, ?_⟩
    · exact congrArg (Except.map fun s => { w with settings := s }) hf
    · exact congrArg (Except.map fun s => { w' with settings := s }) hf'

/-- A change fails on both sides or keeps them alike. -/
theorem Change.Varies.apply {w w' : World} {c c' : Change} (hc : c.Varies c')
    (h : w.SameButLog w') :
    (∃ u u', c.apply w = .ok u ∧ c'.apply w' = .ok u' ∧ u.SameButLog u') ∨
      ∃ f, c.apply w = .error f ∧ c'.apply w' = .error f := by
  cases hc with
  | @assign f v v' hv =>
    refine h.assign f.name fun g hg => ?_
    rw [Field.named?_name] at hg
    rwa [← Option.some.inj hg]
  | same =>
    cases c with
    | assign name v => exact h.assign name fun _ _ => .inl rfl
    | _ =>
      obtain ⟨hs, hw⟩ := h
      rw [hw]
      exact .inl ⟨_, _, rfl, rfl, hs, rfl⟩

namespace Simulation

/-! ## One operation -/

/-- The simulation of processes that differ in nothing but the logging configuration, each in its
world. Nothing in the context keeps an event from being written. -/
def unlogged (w w' : World) : Simulation where
  left := w
  right := w'
  together p q := p.loaded = q.loaded ∧ p.context = q.context ∧ Logging.Harmless p.context
  passes _ _ _ _ a b := unwritten a = unwritten b
  stay _ := rfl
  trans := by
    intro p q p' q' p'' q'' a b c d h₁ h₂
    rw [unwritten_append, unwritten_append, h₁, h₂]

variable {w w' : World}

theorem unlogged_relates_log {e : Logging.Event} (he : e.IsPlain) :
    (unlogged w w').Relates (Action.log e) (Action.log e) := by
  intro p q hpq
  obtain ⟨hl, hc, hp⟩ := hpq
  refine ⟨?_, ?_, ?_⟩
  · show (Action.log e w p).answer = (Action.log e w' q).answer
    rw [Action.log_answer w p he, Action.log_answer w' q he, p.obstacle_of_harmless hp,
      q.obstacle_of_harmless (hc ▸ hp)]
  · rw [Action.log_process, Action.log_process]
    exact ⟨hl, hc, hp⟩
  · show unwritten (Action.log e w p).effects = unwritten (Action.log e w' q).effects
    rw [unwritten_log, unwritten_log]

section Operations

variable (hw : w.SameButLog w')
include hw

theorem unlogged_supports : (unlogged w w').Supports where
  calls _ := fun _ _ _ => rfl
  engages _ := fun _ _ _ => rfl
  engine := hw.engine
  logs _ he := unlogged_relates_log he.isPlain
  configures level format := by
    intro p q hpq
    show (unlogged w w').Matches p q (Action.configureLogging level format w p)
      (Action.configureLogging level format w' q)
    rw [Action.configureLogging_apply, Action.configureLogging_apply]
    obtain ⟨a, b, ha, hb⟩ | ⟨f, hf, hf'⟩ := Logging.Setup.make_sameButLog hw.settings level format
    · rw [ha, hb]
      exact ⟨rfl, hpq, rfl⟩
    · rw [hf, hf']
      exact ⟨rfl, hpq, rfl⟩

theorem unlogged_relates_load : (unlogged w w').Relates Loader.load Loader.load := by
  intro p q hpq
  show (unlogged w w').Matches p q (Loader.load w p) (Loader.load w' q)
  obtain ⟨hl, hrest⟩ := id hpq
  cases hloaded : p.loaded with
  | some l =>
    rw [Loader.load_of_loaded hloaded, Loader.load_of_loaded (hl ▸ hloaded)]
    exact ⟨rfl, hpq, rfl⟩
  | none =>
    have hloaded' : q.loaded = none := hl ▸ hloaded
    have hanew : (unlogged w w').Relates Loader.loadAnew Loader.loadAnew :=
      relates_loadAnew hw.loadsAs (fun _ _ _ _ _ => rfl) fun path =>
        unlogged_relates_log (Loader.loadedEvent_isPlain path)
    obtain ⟨hanswer, -, hpasses⟩ := hanew p q hpq
    have hanswer : (Loader.loadAnew w p).answer = (Loader.loadAnew w' q).answer := hanswer
    cases ha : (Loader.loadAnew w p).answer with
    | ok l =>
      have ha' : (Loader.loadAnew w' q).answer = .ok l := hanswer.symm.trans ha
      rw [Loader.load_of_ok hloaded ha, Loader.load_of_ok hloaded' ha']
      exact ⟨rfl, ⟨rfl, hrest⟩, hpasses⟩
    | error f =>
      have ha' : (Loader.loadAnew w' q).answer = .error f := hanswer.symm.trans ha
      rw [Loader.load_of_error hloaded ha, Loader.load_of_error hloaded' ha']
      exact ⟨rfl, hpq, hpasses⟩

/-- What the binding's operations come to shows nothing of the difference, the settings themselves
apart. -/
theorem unlogged_relates_own {o : Operation} (ho : o.isOwn) (hs : o ≠ .settings) :
    (unlogged w w').Relates o.run o.run := by
  have hown : (unlogged w w').Relates (o.runFrom Loader.load) (o.runFrom Loader.load) := by
    refine (unlogged_supports hw).anyOwn hw.loadsAs (unlogged_relates_load hw) ho
      (fun _ _ _ _ _ => rfl) (fun h => absurd h hs) ?_ ?_
    · refine Relates.bind (relates_modify ?_) fun _ => relates_pure _
      exact fun p q hpq => ⟨⟨rfl, hpq.2⟩, rfl⟩
    · refine Relates.bind (relates_modify ?_) fun _ => relates_pure _
      exact fun p q hpq => ⟨⟨hpq.1, rfl, .nil⟩, rfl⟩
  rwa [Operation.runFrom_load] at hown

end Operations

end Simulation

/-- Answers that differ at most in what they say about the log: the settings may. -/
inductive Answer.SameButLog : Except Fault Answer → Except Fault Answer → Prop
  | same (answer : Except Fault Answer) : SameButLog answer answer
  | settings {s s' : Settings} (h : s.SameButLog s') :
    SameButLog (.ok (.settings s)) (.ok (.settings s'))

/-- Reports that differ at most in what becomes of the events logged and in what the settings say
about the log. -/
structure Report.SameButLog (r r' : Report) : Prop where
  answer : Answer.SameButLog r.answer r'.answer
  effects : unwritten r.effects = unwritten r'.effects
  loaded : r.loaded = r'.loaded

namespace Step

/-- A message for the log. -/
def isMessage : Step → Bool
  | operation (.message _) => true
  | _ => false

/-- The step binds nothing to the context that keeps an event from being written. -/
def IsHarmless : Step → Prop
  | operation (.bindContext entries) => Logging.Harmless entries
  | _ => True

/-- The steps of two versions of a run beside each other: the same step, or changes that may differ,
or calls that configure logging in both. -/
inductive Varies (s s' : Session) : Step → Step → Prop
  | same (o : Operation) : Varies s s' (.operation o) (.operation o)
  | change {c c' : Change} (h : c.Varies c') : Varies s s' (.change c) (.change c')
  | configure {level format level' format' : Value}
    (h : (s.step (.operation (.configureLogging level format))).2.answer = .ok .nothing)
    (h' : (s'.step (.operation (.configureLogging level' format'))).2.answer = .ok .nothing) :
    Varies s s' (.operation (.configureLogging level format))
      (.operation (.configureLogging level' format'))

end Step

namespace Session

/-! ## Runs -/

/-- Two versions of a run, each from its session. -/
inductive Versions : Session → Session → List Step → List Step → Prop
  | nil {s s' : Session} : Versions s s' [] []
  | cons {s s' : Session} {st st' : Step} {rest rest' : List Step} (h : st.Varies s s' st')
    (hrest : Versions (s.step st).1 (s'.step st').1 rest rest') :
    Versions s s' (st :: rest) (st' :: rest')

/-- Sessions that differ in what the settings say about the log, in the clock and in the logging
configuration. Nothing in the context keeps an event from being written. -/
structure SameButLog (s s' : Session) : Prop where
  world : s.world.SameButLog s'.world
  loaded : s.process.loaded = s'.process.loaded
  context : s.process.context = s'.process.context
  harmless : Logging.Harmless s.process.context

/-- The report of a step that is no message for the log. -/
def reported (s : Session) (st : Step) : List Report := if st.isMessage then [] else [(s.step st).2]

variable {s s' : Session}

theorem own_sameButLog (h : s.SameButLog s') {o : Operation} (ho : o.isOwn) :
    (s.step (.operation o)).1.SameButLog (s'.step (.operation o)).1 ∧
      (s.step (.operation o)).2.SameButLog (s'.step (.operation o)).2 := by
  obtain ⟨hw, hl, hc, hp⟩ := h
  by_cases hsettings : o = .settings
  · subst hsettings
    exact ⟨⟨hw, hl, hc, hp⟩, .settings hw.settings, rfl, congrArg Option.isSome hl⟩
  · obtain ⟨hanswer, ⟨hl', hc', hp'⟩, heffects⟩ :=
      Simulation.unlogged_relates_own hw ho hsettings s.process s'.process ⟨hl, hc, hp⟩
    have hanswer : (o.run s.world s.process).answer = (o.run s'.world s'.process).answer :=
      hanswer
    refine ⟨⟨hw, hl', hc', hp'⟩, ?_, heffects, congrArg Option.isSome hl'⟩
    show Answer.SameButLog (o.run s.world s.process).answer (o.run s'.world s'.process).answer
    rw [hanswer]
    exact .same _

/-- Whatever becomes of a message, it leaves the process as it is. -/
theorem step_message_process (t : Session) (m : Message) :
    (t.step (.operation (.message m))).1.process = t.process := by
  show ((m.log >>= fun _ => pure Answer.nothing) t.world t.process).process = t.process
  rw [Action.bind_pure_apply, m.log_process]

theorem operation_sameButLog (h : s.SameButLog s') (o : Operation)
    (hh : (Step.operation o).IsHarmless) :
    (s.step (.operation o)).1.SameButLog (s'.step (.operation o)).1 ∧
      ((Step.operation o).isMessage = false →
        (s.step (.operation o)).2.SameButLog (s'.step (.operation o)).2) := by
  cases ho : o.isOwn with
  | true =>
    obtain ⟨hnext, hreport⟩ := own_sameButLog h ho
    exact ⟨hnext, fun _ => hreport⟩
  | false =>
    obtain ⟨hw, hl, hc, hp⟩ := h
    cases o with
    | message m =>
      refine ⟨⟨hw, ?_, ?_, ?_⟩, nofun⟩
      · rw [step_message_process, step_message_process, hl]
      · rw [step_message_process, step_message_process, hc]
      · rw [step_message_process]
        exact hp
    | bindContext entries =>
      refine ⟨⟨hw, hl, ?_, hp.insertAll hh⟩, fun _ => ⟨.same _, rfl, congrArg Option.isSome hl⟩⟩
      exact congrArg (Assoc.insertAll · entries) hc
    | _ => cases ho

/-- Beside each other two versions of a step keep the sessions alike, and what they report too, be
it not of a message. -/
theorem step_sameButLog (h : s.SameButLog s') {st st' : Step} (hv : st.Varies s s' st')
    (hh : st.IsHarmless) :
    (s.step st).1.SameButLog (s'.step st').1 ∧
      List.Forall₂ Report.SameButLog (s.reported st) (s'.reported st') := by
  cases hv with
  | same o =>
    obtain ⟨hnext, hreport⟩ := operation_sameButLog h o hh
    refine ⟨hnext, ?_⟩
    unfold reported
    split
    · exact .nil
    · rename_i hm
      exact .cons (hreport (by simpa using hm)) .nil
  | @change c c' hc =>
    obtain ⟨hw, hl, hcontext, hp⟩ := h
    obtain ⟨u, u', hu, hu', hnext⟩ | ⟨f, hf, hf'⟩ := hc.apply hw
    · rw [reported, reported, step_change_of_ok hu, step_change_of_ok hu']
      exact ⟨⟨hnext, hl, hcontext, hp⟩, .cons ⟨.same _, rfl, congrArg Option.isSome hl⟩ .nil⟩
    · rw [reported, reported, step_change_of_error hf, step_change_of_error hf']
      exact ⟨⟨hw, hl, hcontext, hp⟩, .cons ⟨.same _, rfl, congrArg Option.isSome hl⟩ .nil⟩
  | @configure level format level' format' hcall hcall' =>
    -- both calls succeed, so both put a setup in force and do nothing else
    obtain ⟨setup, -, hstep⟩ := step_of_configured hcall
    obtain ⟨setup', -, hstep'⟩ := step_of_configured hcall'
    obtain ⟨hw, hl, hcontext, hp⟩ := h
    rw [reported, reported, hstep, hstep']
    exact ⟨⟨hw, hl, hcontext, hp⟩, .cons ⟨.same _, rfl, congrArg Option.isSome hl⟩ .nil⟩

/-- Two versions of a run keep the sessions alike, and what they report. -/
theorem versions_sameButLog {steps steps' : List Step} (hv : Versions s s' steps steps')
    (h : s.SameButLog s') (hh : ∀ st ∈ steps, st.IsHarmless) :
    List.Forall₂ Report.SameButLog (s.trace reported steps) (s'.trace reported steps') ∧
      (s.after steps).SameButLog (s'.after steps') := by
  induction hv with
  | nil => exact ⟨.nil, h⟩
  | cons hst _ ih =>
    obtain ⟨hfirst, hrest⟩ := List.forall_mem_cons.mp hh
    obtain ⟨hnext, hreport⟩ := step_sameButLog h hst hfirst
    obtain ⟨hreports, hafter⟩ := ih hnext hrest
    exact ⟨List.rel_append hreport hreports, hafter⟩

/-- Two versions of a run that differ in the settings of the log, in the clock and in the arguments
of calls that configure logging in both report the same, but for what becomes of the events logged:
each operation comes to the same value or fault, looks for the same files and libraries, opens,
calls and asks the engine for the same and logs the same events, and the same library is loaded in
the end. Others may log messages of their own in between, whatever these come to, and bind entries
to the context that keep no event from being written. -/
theorem logging_does_not_interfere (w w' : World) (hw : w.SameButLog w') {steps steps' : List Step}
    (hv : Versions (start w) (start w') steps steps') (hh : ∀ st ∈ steps, st.IsHarmless) :
    List.Forall₂ Report.SameButLog ((start w).trace reported steps)
        ((start w').trace reported steps') ∧
      ((start w).after steps).process.loaded = ((start w').after steps').process.loaded := by
  obtain ⟨hreports, hafter⟩ := versions_sameButLog hv ⟨hw, rfl, rfl, .nil⟩ hh
  exact ⟨hreports, hafter.loaded⟩

/-- One version writes for people and next to nothing, the other one writes all of it in JSON. -/
theorem logging_does_not_interfere_verbose :
    let w := World.naming (.exporting [Loader.symbolName])
    let w' := { w with
      settings := { w.settings with logLevel := .str "DEBUG", explicit := [.logLevel] }
      now := ⟨1999, 12, 31, 23, 59, 59, 1⟩ }
    let steps : List Step := [
      .operation (.configureLogging (.str "Error") .null),
      .operation .language,
      .operation (.bindContext [("stack", .str "main"), ("user", .int (.mk 1))]),
      .operation (.verify (.str "KPL") (some (.ok .null)) none),
      .change (.assign "LOG_LEVEL" (.str "CRITICAL")),
      .operation .smoke]
    let steps' : List Step := [
      .operation (.configureLogging .null (.str "json")),
      .operation .language,
      .operation (.bindContext [("stack", .str "main"), ("user", .int (.mk 1))]),
      .operation (.verify (.str "KPL") (some (.ok .null)) none),
      .change (.assign "LOG_LEVEL" (.str "INFO")),
      .operation .smoke]
    List.Forall₂ Report.SameButLog ((start w).trace reported steps)
        ((start w').trace reported steps') ∧
      ((start w).trace (fun s st => writtenLines (s.effects st)) steps).length = 1 ∧
      ((start w').trace (fun s st => writtenLines (s.effects st)) steps').length = 3 := by
  intro w w' steps steps'
  have hdebug : Settings.IsLevel (.str "DEBUG") := ⟨"DEBUG", by decide, rfl⟩
  have hinfo : Settings.IsLevel (.str "INFO") := ⟨"INFO", by decide, rfl⟩
  have hcritical : Settings.IsLevel (.str "CRITICAL") := ⟨"CRITICAL", by decide, rfl⟩
  have hw : w.SameButLog w' := by
    refine ⟨⟨fun f => ?_, fun f hl hm => ?_⟩, rfl⟩
    · cases f with
      | logLevel => exact .inr (.inr ⟨rfl, hinfo, hdebug⟩)
      | _ => exact .inl rfl
    · show f ∈ [] ↔ f ∈ [Field.logLevel]
      simp [hl]
  have hassign : Change.Varies (.assign "LOG_LEVEL" (.str "CRITICAL"))
      (.assign "LOG_LEVEL" (.str "INFO")) :=
    .assign (f := .logLevel) (.inr (.inr ⟨rfl, hcritical, hinfo⟩))
  have hv : Versions (start w) (start w') steps steps' := by
    refine .cons (.configure rfl rfl) ?_
    refine .cons (.same _) (.cons (.same _) (.cons (.same _) ?_))
    exact .cons (.change hassign) (.cons (.same _) .nil)
  have hh : ∀ st ∈ steps, st.IsHarmless := by
    have hbound : Logging.Harmless [("stack", .str "main"), ("user", .int (.mk 1))] := by
      simp [Logging.Harmless]
    simp only [steps, List.forall_mem_cons]
    exact ⟨trivial, trivial, hbound, trivial, trivial, trivial, by simp⟩
  exact ⟨(logging_does_not_interfere w w' hw hv hh).1, by decide +kernel, by decide +kernel⟩

end Session

end GrammarLoader
