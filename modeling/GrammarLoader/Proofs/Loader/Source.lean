import GrammarLoader.Proofs.Loader.Attempt
import GrammarLoader.Session

/-!
# Operations over a source of the library

Every operation that needs the library asks for it once, at one place. With that place left open an
operation is a function of a source of the library; the binding's own source remembers what it has
loaded. Related sources make related operations, whatever the operation does with the library.
-/

namespace GrammarLoader

namespace Loader

/-- The descriptor that a loaded library gives, null if it gives none. -/
def describe (loaded : Loaded) : Action Object := do
  let address ← callSymbol loaded.symbol
  let descriptor ← Action.ofExcept address.wrap
  if descriptor.isNull then Action.log (nullEvent loaded.path)
  return descriptor

/-- The grammar's descriptor, for a source of the library. -/
def languageFrom (source : Action Loaded) : Action Object := source >>= describe

section Describing

variable {l : Loaded} {w : World} {p : Process}

theorem callSymbol_apply (symbol : Symbol) (w : World) (p : Process) :
    callSymbol symbol w p = ⟨symbol.call, p, [.called symbol]⟩ := rfl

theorem describe_of_error {f : Fault} (h : l.symbol.call >>= Object.wrap = .error f) :
    describe l w p = ⟨.error f, p, [.called l.symbol]⟩ := by
  have hcalled := callSymbol_apply l.symbol w p
  unfold describe
  cases hc : l.symbol.call with
  | error g =>
    rw [hc] at h hcalled
    cases h
    rw [Action.bind_eq_of_error hcalled]
  | ok address =>
    rw [hc] at h hcalled
    have hw : address.wrap = .error f := h
    rw [Action.bind_eq_of_ok hcalled, hw, Action.bind_eq_of_error rfl]
    rfl

/-- A symbol that gives what can be wrapped: what is left is to log it if there is no grammar. -/
theorem describe_of_ok {descriptor : Object}
    (h : l.symbol.call >>= Object.wrap = .ok descriptor) :
    describe l w p = if descriptor.isNull then
        ⟨match p.obstacle .warning with
          | none => .ok descriptor
          | some o => .error ↑o, p,
          .called l.symbol :: (Action.log (nullEvent l.path) w p).effects⟩
      else ⟨.ok descriptor, p, [.called l.symbol]⟩ := by
  have hcalled := callSymbol_apply l.symbol w p
  unfold describe
  cases hc : l.symbol.call with
  | error g =>
    rw [hc] at h
    cases h
  | ok address =>
    rw [hc] at h hcalled
    have hw : address.wrap = .ok descriptor := h
    rw [Action.bind_eq_of_ok hcalled, hw, Action.bind_eq_of_ok rfl]
    cases descriptor.isNull with
    | false => rfl
    | true =>
      have hlog := Action.log_answer w p (nullEvent_isPlain l.path)
      rw [show (nullEvent l.path).level = .warning from rfl] at hlog
      simp only [if_true]
      rw [Action.bind_pure_apply, hlog, Action.log_process]
      cases p.obstacle .warning <;> rfl

/-- Describing a library leaves it and all else as it is. -/
@[simp] theorem describe_process (l : Loaded) (w : World) (p : Process) :
    (describe l w p).process = p := by
  cases hd : l.symbol.call >>= Object.wrap with
  | error f => rw [describe_of_error hd]
  | ok descriptor =>
    rw [describe_of_ok hd]
    split <;> rfl

end Describing

end Loader

namespace Smoke

/-- Whether a check is passed, by the name in its error if it is not. -/
def verdictOf (check : Action Object) : Action (Option Value) := fun w p =>
  let checked := check w p
  match checked.answer with
  | .ok _ => ⟨.ok none, checked.process, checked.effects⟩
  | .error fault =>
    match rejectedName? fault.failure with
    | some name => ⟨.ok (some name), checked.process, checked.effects⟩
    | none => ⟨.error fault, checked.process, checked.effects⟩

theorem verdictOf_answer (check : Action Object) (w : World) (p : Process) :
    (verdictOf check w p).answer = match (check w p).answer with
      | .ok _ => .ok none
      | .error f => match rejectedName? f.failure with
        | some name => .ok (some name)
        | none => .error f := by
  unfold verdictOf
  dsimp only
  cases (check w p).answer with
  | ok l => rfl
  | error f =>
    dsimp only
    split <;> rfl

@[simp] theorem verdictOf_process (check : Action Object) (w : World) (p : Process) :
    (verdictOf check w p).process = (check w p).process := by
  unfold verdictOf
  dsimp only
  split
  · rfl
  · split <;> rfl

@[simp] theorem verdictOf_effects (check : Action Object) (w : World) (p : Process) :
    (verdictOf check w p).effects = (check w p).effects := by
  unfold verdictOf
  dsimp only
  split
  · rfl
  · split <;> rfl

/-- The status of a verdict, and its event. -/
def conclude : Option Value → Action Nat
  | none => do
    Action.log passedEvent
    return 0
  | some name => do
    Action.log (failedEvent (Failure.rejectedText name))
    return 1

/-- The smoke check, for a source of the library. -/
def runFrom (source : Action Loaded) : Action Nat := do
  Action.configureLogging .null .null
  let verdict ← verdictOf
    (Check.verify (.str Check.grammarName) (Loader.languageFrom source) Check.engageWorld)
  conclude verdict

theorem runFrom_load : runFrom Loader.load = run := by
  unfold runFrom run
  congr 1

/-- The smoke check is a check once logging is configured. -/
theorem run_apply (w : World) (p : Process) :
    run w p = match Logging.Setup.make w.settings .null .null with
      | .ok setup => (verdictOf Check.verifyOwn >>= conclude) w { p with logging := some setup }
      | .error f => ⟨.error ↑f, p, []⟩ := by
  have hconfigured := Action.configureLogging_apply .null .null w p
  rw [← runFrom_load]
  unfold runFrom
  cases hm : Logging.Setup.make w.settings .null .null with
  | ok setup =>
    rw [hm] at hconfigured
    rw [Action.bind_eq_of_ok hconfigured]
    rfl
  | error f =>
    rw [hm] at hconfigured
    rw [Action.bind_eq_of_error hconfigured]

end Smoke

namespace Operation

/-- Operations of the binding. The others write to its log or bind entries to the log's context. -/
def isOwn : Operation → Bool
  | message _ | bindContext _ => false
  | _ => true

/-- Operations that need the library. -/
def usesLoader : Operation → Bool
  | language | libraryPath | verify _ none _ | smoke | smokeProcess => true
  | _ => false

/-- The engine that a check is given, or that of the world. -/
def engineOr (engine : Option Engine) : Object → Action Object :=
  match engine with
  | some e => Check.engage e
  | none => Check.engageWorld

/-- What the end of a smoke check is to the process. -/
def ended (check : Action Nat) : Action Answer := fun w p =>
  let outcome := check w p
  ⟨(Smoke.exitStatus outcome.answer).map Answer.exit, outcome.process, outcome.effects⟩

/-- Runs an operation, for a source of the library. -/
def runFrom (source : Action Loaded) : Operation → Action Answer
  | language => do return .object (← Loader.languageFrom source)
  | libraryPath => do return .text (← source).path
  | verify name none engine => do
    return .object (← Check.verify name (Loader.languageFrom source) (engineOr engine))
  | smoke => do return .status (← Smoke.runFrom source)
  | smokeProcess => ended (Smoke.runFrom source)
  | o => o.run

theorem runFrom_load (o : Operation) : o.runFrom Loader.load = o.run := by
  cases o with
  | verify name factory engine => cases factory <;> cases engine <;> rfl
  | libraryPath =>
    show (Loader.load >>= fun l => pure (Answer.text l.path)) =
      (Loader.load >>= fun l => pure l.path) >>= fun path => pure (Answer.text path)
    rw [bind_assoc]
    rfl
  | smoke =>
    show (Smoke.runFrom Loader.load >>= _) = _
    rw [Smoke.runFrom_load]
    rfl
  | smokeProcess =>
    show ended (Smoke.runFrom Loader.load) = _
    rw [Smoke.runFrom_load]
    rfl
  | _ => rfl

section Running

/-! ## Operations by the actions that they run -/

variable (w : World) (p : Process)

theorem language_run : language.run w p = ⟨(Loader.language w p).answer.map Answer.object,
    (Loader.language w p).process, (Loader.language w p).effects⟩ :=
  Action.bind_pure_apply Loader.language Answer.object w p

theorem libraryPath_run :
    libraryPath.run w p = ⟨(Loader.load w p).answer.map fun l => Answer.text l.path,
      (Loader.load w p).process, (Loader.load w p).effects⟩ := by
  rw [← runFrom_load]
  exact Action.bind_pure_apply Loader.load (fun l => Answer.text l.path) w p

theorem locate_run : locate.run w p =
    ⟨(Search.locate w p).answer.map Answer.text, p, (Search.locate w p).effects⟩ := by
  have hrun := Action.bind_pure_apply Search.locate Answer.text w p
  rw [Search.locate_process] at hrun
  exact hrun

theorem smoke_run : smoke.run w p = ⟨(Smoke.run w p).answer.map Answer.status,
    (Smoke.run w p).process, (Smoke.run w p).effects⟩ :=
  Action.bind_pure_apply Smoke.run Answer.status w p

theorem configureLogging_run (level format : Value) :
    (configureLogging level format).run w p =
      match Logging.Setup.make w.settings level format with
      | .ok setup => ⟨.ok .nothing, { p with logging := some setup }, []⟩
      | .error f => ⟨.error ↑f, p, []⟩ := by
  have hrun : (configureLogging level format).run w p = _ :=
    Action.bind_pure_apply (Action.configureLogging level format) (fun _ => Answer.nothing) w p
  rw [hrun, Action.configureLogging_apply]
  cases Logging.Setup.make w.settings level format <;> rfl

end Running

theorem runFrom_of_not_usesLoader {o : Operation} (h : o.usesLoader = false)
    (source : Action Loaded) : o.runFrom source = o.run := by
  cases o with
  | verify name factory engine =>
    cases factory with
    | none => cases h
    | some made => rfl
  | language | libraryPath | smoke | smokeProcess => cases h
  | _ => rfl

end Operation

/-- Events by which the binding reports on a grammar. -/
inductive Logging.Event.IsReport : Logging.Event → Prop
  | noGrammar (path : String) : IsReport (Loader.nullEvent path)
  | rejected (name : Value) (reason : String) : IsReport (Check.failedEvent name reason)
  | passed : IsReport Smoke.passedEvent
  | failed (reason : String) : IsReport (Smoke.failedEvent reason)

theorem Logging.Event.IsReport.isPlain {e : Logging.Event} (h : e.IsReport) : e.IsPlain := by
  cases h <;> exact Logging.Event.named_isPlain rfl rfl

namespace Simulation

variable {S : Simulation}

/-- What a simulation needs for all that is done with a library. -/
structure Supports (S : Simulation) : Prop where
  calls : ∀ symbol, S.Allows (.called symbol)
  engages : ∀ descriptor, S.Allows (.engaged descriptor)
  engine : S.left.engine = S.right.engine
  logs : ∀ e : Logging.Event, e.IsReport → S.Relates (Action.log e) (Action.log e)
  configures : ∀ level format,
    S.Relates (Action.configureLogging level format) (Action.configureLogging level format)

namespace Supports

variable (h : S.Supports)
include h

theorem describe (l : Loaded) : S.Relates (Loader.describe l) (Loader.describe l) := by
  refine ((relates_perform (h.calls _)).bind fun _ => relates_ofExcept _).bind fun address => ?_
  refine (relates_ofExcept _).bind fun descriptor => ?_
  cases descriptor.isNull with
  | true => exact (h.logs _ (.noGrammar _)).bind fun _ => relates_pure _
  | false => exact relates_pure _

theorem languageFrom {x y : Action Loaded} (hs : S.Relates x y) :
    S.Relates (Loader.languageFrom x) (Loader.languageFrom y) :=
  hs.bind h.describe

theorem engage (engine : Engine) (descriptor : Object) :
    S.Relates (Check.engage engine descriptor) (Check.engage engine descriptor) :=
  (relates_perform (h.engages descriptor)).bind fun _ => relates_ofExcept _

theorem engageWorld (descriptor : Object) :
    S.Relates (Check.engageWorld descriptor) (Check.engageWorld descriptor) := by
  intro p q hp
  show S.Matches p q (Check.engage S.left.engine descriptor S.left p)
    (Check.engage S.right.engine descriptor S.right q)
  rw [← h.engine]
  exact h.engage _ _ p q hp

theorem engineOr (engine : Option Engine) (descriptor : Object) :
    S.Relates (Operation.engineOr engine descriptor) (Operation.engineOr engine descriptor) := by
  cases engine with
  | some e => exact h.engage e descriptor
  | none => exact h.engageWorld descriptor

theorem verify (name : Value) {x y : Action Object} {f g : Object → Action Object}
    (hx : S.Relates x y) (hf : ∀ descriptor, S.Relates (f descriptor) (g descriptor)) :
    S.Relates (Check.verify name x f) (Check.verify name y g) := by
  have hattempt : S.Relates (Check.attempt x f) (Check.attempt y g) := by
    refine hx.bind fun descriptor => ?_
    cases descriptor.isNull with
    | true => exact relates_pure _
    | false => exact hf descriptor
  have hreport (fault : Fault) : S.Relates (Check.report name fault) (Check.report name fault) :=
    (relates_ofExcept _).bind fun _ => (h.logs _ (.rejected _ _)).bind fun _ => relates_fail _
  -- only the attempt is recovered from: the truth test of its language comes after it
  refine (hattempt.orRecover hreport).bind fun language => ?_
  refine (relates_ofExcept _).bind fun full => ?_
  cases full with
  | true => exact relates_pure _
  | false => exact (h.logs _ (.rejected _ _)).bind fun _ => relates_fail _

theorem smoke {x y : Action Loaded} (hs : S.Relates x y) :
    S.Relates (Smoke.runFrom x) (Smoke.runFrom y) := by
  have hcheck := h.verify (.str Check.grammarName) (h.languageFrom hs) h.engageWorld
  have hverdict : S.Relates
      (Smoke.verdictOf (Check.verify (.str Check.grammarName) (Loader.languageFrom x)
        Check.engageWorld))
      (Smoke.verdictOf (Check.verify (.str Check.grammarName) (Loader.languageFrom y)
        Check.engageWorld)) := by
    intro p q hp
    obtain ⟨ha, hq, he⟩ := hcheck p q hp
    unfold Smoke.verdictOf
    simp only [← ha]
    split
    · exact ⟨rfl, hq, he⟩
    · split
      · exact ⟨rfl, hq, he⟩
      · exact ⟨rfl, hq, he⟩
  refine (h.configures _ _).bind fun _ => hverdict.bind fun verdict => ?_
  cases verdict with
  | none => exact (h.logs _ .passed).bind fun _ => relates_pure _
  | some name => exact (h.logs _ (.failed _)).bind fun _ => relates_pure _

/-- Related sources make related operations. -/
theorem operation {x y : Action Loaded} (hs : S.Relates x y) {o : Operation}
    (ho : o.usesLoader) : S.Relates (o.runFrom x) (o.runFrom y) := by
  cases o with
  | language => exact (h.languageFrom hs).bind fun _ => relates_pure _
  | libraryPath => exact hs.bind fun _ => relates_pure _
  | verify name factory engine =>
    cases factory with
    | none =>
      exact (h.verify name (h.languageFrom hs) (h.engineOr engine)).bind fun _ => relates_pure _
    | some made => cases ho
  | smoke => exact (h.smoke hs).bind fun _ => relates_pure _
  | smokeProcess =>
    intro p q hp
    obtain ⟨ha, hq, he⟩ := h.smoke hs p q hp
    exact ⟨congrArg (fun a => (Smoke.exitStatus a).map Answer.exit) ha, hq, he⟩
  | _ => cases ho

/-- A check with a factory of its own is related to itself. -/
theorem verifyMade (name : Value) (made : Except Fault Object) (engine : Option Engine) :
    S.Relates (Operation.verify name (some made) engine).run
      (Operation.verify name (some made) engine).run := by
  have hcheck := h.verify name (relates_ofExcept made) (h.engineOr engine)
  cases engine <;> exact hcheck.bind fun _ => relates_pure _

omit h in
theorem settings (hw : S.left = S.right) :
    S.Relates Operation.settings.run Operation.settings.run :=
  (relates_world hw).bind fun _ => relates_pure _

/-- So are all operations of the binding, forgetting and the bare search apart. -/
theorem own {x y : Action Loaded} (hw : S.left.LoadsAs S.right) (hs : S.Relates x y)
    {o : Operation} (ho : o.isOwn)
    (hsettings : o = .settings → S.Relates Operation.settings.run Operation.settings.run)
    (hclear : S.Relates Operation.clearContext.run Operation.clearContext.run)
    (hf : o ≠ .forget) (hl : o ≠ .locate) :
    S.Relates (o.runFrom x) (o.runFrom y) := by
  cases hu : o.usesLoader with
  | true => exact h.operation hs hu
  | false =>
    rw [Operation.runFrom_of_not_usesLoader hu, Operation.runFrom_of_not_usesLoader hu]
    cases o with
    | language | libraryPath | smoke | smokeProcess => cases hu
    | message | bindContext => cases ho
    | forget => exact absurd rfl hf
    | locate => exact absurd rfl hl
    | clearContext => exact hclear
    | verify name factory engine =>
      cases factory with
      | none => cases hu
      | some made => exact h.verifyMade name made engine
    | candidates =>
      refine relates_world_bind ?_
      rw [hw.candidates_eq]
      exact (relates_ofFailure _).bind fun _ => relates_pure _
    | configureLogging level format =>
      exact (h.configures level format).bind fun _ => relates_pure _
    | settings => exact hsettings rfl

/-- If a search may happen on both sides at once and both sides may forget, all are related. -/
theorem anyOwn {x y : Action Loaded} (hw : S.left.LoadsAs S.right) (hs : S.Relates x y)
    {o : Operation} (ho : o.isOwn) (hsearch : ∀ e : Effect, e.isSearch → S.Allows e)
    (hsettings : o = .settings → S.Relates Operation.settings.run Operation.settings.run)
    (hforget : S.Relates Operation.forget.run Operation.forget.run)
    (hclear : S.Relates Operation.clearContext.run Operation.clearContext.run) :
    S.Relates (o.runFrom x) (o.runFrom y) := by
  by_cases hf : o = .forget
  · subst hf
    exact hforget
  · by_cases hl : o = .locate
    · subst hl
      exact (relates_locate hw hsearch).bind fun _ => relates_pure _
    · exact h.own hw hs ho hsettings hclear hf hl

end Supports

end Simulation

end GrammarLoader
