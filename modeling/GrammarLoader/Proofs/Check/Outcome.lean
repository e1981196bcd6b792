import GrammarLoader.Proofs.Check.Report
import GrammarLoader.Proofs.Loader.Memory
import GrammarLoader.Proofs.Loader.Tame
import GrammarLoader.Proofs.Logging.Written

/-!
# The outcome of a check

A check calls its factory first, and the engine if there is a descriptor to give it; each of them
once. What it comes to is told by what these two come to: the engine's language, or one rejection
that is logged once, or a fault that nobody may answer.
-/

namespace GrammarLoader

namespace Loader

/-- All that is done on the way to a descriptor: the library is looked for and announced, its symbol
is called, and that there is no grammar in it is told. -/
theorem mem_language {w : World} {p : Process} {e : Effect} (h : e ∈ (language w p).effects) :
    e.isLookup ∨ (∃ symbol, e = .called symbol) ∨
      ∃ path q, e ∈ (Action.log (loadedEvent path) w q).effects ∨
        e ∈ (Action.log (nullEvent path) w q).effects := by
  have hload : e ∈ (load w p).effects →
      e.isLookup ∨ ∃ path, e ∈ (Action.log (loadedEvent path) w p).effects := by
    intro he
    cases hp : p.loaded with
    | some l =>
      rw [load_of_loaded hp] at he
      cases he
    | none =>
      rw [load_effects_of_none hp] at he
      exact mem_loadAnew he
  have hdescribe : ∀ l q, e ∈ (describe l w q).effects →
      e = .called l.symbol ∨ e ∈ (Action.log (nullEvent l.path) w q).effects := by
    intro l q he
    cases hd : l.symbol.call >>= Object.wrap with
    | error f =>
      rw [describe_of_error hd] at he
      exact .inl (List.mem_singleton.mp he)
    | ok descriptor =>
      rw [describe_of_ok hd] at he
      split at he
      · exact List.mem_cons.mp he
      · exact .inl (List.mem_singleton.mp he)
  change e ∈ ((load >>= describe) w p).effects at h
  cases hl : (load w p).answer with
  | error f =>
    rw [Action.bind_of_error hl] at h
    obtain hlookup | ⟨path, hlog⟩ := hload h
    · exact .inl hlookup
    · exact .inr (.inr ⟨path, p, .inl hlog⟩)
  | ok l =>
    rw [Action.bind_of_ok hl, List.mem_append] at h
    obtain h | h := h
    · obtain hlookup | ⟨path, hlog⟩ := hload h
      · exact .inl hlookup
      · exact .inr (.inr ⟨path, p, .inl hlog⟩)
    · obtain hcalled | hlog := hdescribe l _ h
      · exact .inr (.inl ⟨l.symbol, hcalled⟩)
      · exact .inr (.inr ⟨l.path, _, .inr hlog⟩)

theorem language_process (w : World) (p : Process) :
    ∃ loaded, (language w p).process = { p with loaded } := by
  obtain ⟨loaded, hload⟩ := load_process w p
  refine ⟨loaded, ?_⟩
  change ((load >>= describe) w p).process = _
  cases hl : (load w p).answer with
  | error f => rw [Action.bind_of_error hl, hload]
  | ok l => rw [Action.bind_of_ok hl, describe_process, hload]

theorem engagedObjects_language (w : World) (p : Process) :
    engagedObjects (language w p).effects = [] := by
  refine List.filterMap_eq_nil_iff.mpr fun e he => ?_
  obtain hlookup | ⟨symbol, rfl⟩ | ⟨path, q, hlog | hlog⟩ := mem_language he
  · cases e with
    | engaged => cases hlookup
    | _ => rfl
  · rfl
  · exact List.filterMap_eq_nil_iff.mp (Action.engagedObjects_log _ w q) e hlog
  · exact List.filterMap_eq_nil_iff.mp (Action.engagedObjects_log _ w q) e hlog

/-- Of the events logged on that way none is that of a check. -/
theorem subject_of_mem_language {w : World} {p : Process} {event : Logging.Event}
    (h : event ∈ loggedEvents (language w p).effects) :
    event.subject ≠ .str "grammar_load_failed" := by
  obtain ⟨e, he, hlogged⟩ := List.mem_filterMap.mp h
  have hevent {announced : Logging.Event} {q : Process}
      (hlog : e ∈ (Action.log announced w q).effects) : event = announced := by
    have hmem := List.mem_filterMap.mpr ⟨e, hlog, hlogged⟩
    change event ∈ loggedEvents _ at hmem
    rwa [Action.loggedEvents_log, List.mem_singleton] at hmem
  obtain hlookup | ⟨symbol, rfl⟩ | ⟨path, q, hlog | hlog⟩ := mem_language he
  · cases e with
    | logged => cases hlookup
    | _ => cases hlogged
  · cases hlogged
  · rw [hevent hlog]
    simp [loadedEvent, Logging.Event.named]
  · rw [hevent hlog]
    simp [nullEvent, Logging.Event.named]

end Loader

namespace Operation

/-- The factory that a check is given, or the binding's own. -/
def factoryOr (made : Option (Except Fault Object)) : Action Object :=
  match made with
  | some made => Action.ofExcept made
  | none => Loader.language

theorem verify_run (name : Value) (made : Option (Except Fault Object)) (engine : Option Engine)
    (w : World) (p : Process) :
    (verify name made engine).run w p =
      let checked := Check.verify name (factoryOr made) (engineOr engine) w p
      ⟨checked.answer.map .object, checked.process, checked.effects⟩ := by
  cases made <;> cases engine <;> exact Action.bind_pure_apply _ Answer.object w p

end Operation

namespace Check

/-- What the engine comes to, if it is called: there has to be a descriptor that is not null. -/
def engagement (factory : Action Object) (engine : Object → Action Object) (w : World)
    (p : Process) : Option (Outcome Object) :=
  match (factory w p).answer with
  | .ok descriptor =>
    if descriptor.isNull then none else some (engine descriptor w (factory w p).process)
  | .error _ => none

section Attempting

variable {factory : Action Object} {engine : Object → Action Object} {w : World} {p : Process}

theorem engagement_eq_some_iff {engaged : Outcome Object} :
    engagement factory engine w p = some engaged ↔
      ∃ descriptor, (factory w p).answer = .ok descriptor ∧ descriptor ≠ .null ∧
        engaged = engine descriptor w (factory w p).process := by
  unfold engagement
  cases (factory w p).answer with
  | error f => simp
  | ok descriptor =>
    show (if descriptor.isNull then none else some (engine descriptor w (factory w p).process)) =
      some engaged ↔ _
    by_cases hnull : descriptor = .null
    · rw [if_pos (Object.isNull_iff.mpr hnull)]
      simp [hnull]
    · rw [if_neg (mt Object.isNull_iff.mp hnull)]
      constructor
      · intro h
        cases h
        exact ⟨descriptor, rfl, hnull, rfl⟩
      · rintro ⟨_, hd, -, rfl⟩
        cases hd
        rfl

/-- An attempt with the engine is what the engine comes to, after the factory. -/
theorem attempt_of_some {engaged : Outcome Object}
    (h : engagement factory engine w p = some engaged) :
    attempt factory engine w p =
      ⟨engaged.answer, engaged.process, (factory w p).effects ++ engaged.effects⟩ := by
  obtain ⟨descriptor, hd, hne, rfl⟩ := engagement_eq_some_iff.mp h
  unfold attempt
  rw [Action.bind_of_ok hd]
  simp [Object.isNull_iff, hne]

/-- Without it there is no descriptor, and the attempt is that of the factory. -/
theorem attempt_of_none (h : engagement factory engine w p = none) :
    attempt factory engine w p = factory w p ∧
      ∀ descriptor, (factory w p).answer = .ok descriptor → descriptor = .null := by
  unfold engagement at h
  unfold attempt
  rcases hfactory : factory w p with ⟨answer, process, effects⟩
  rw [hfactory] at h
  cases answer with
  | error f =>
    rw [Action.bind_eq_of_error hfactory]
    simp
  | ok descriptor =>
    have hnull : descriptor = .null := by simpa [Object.isNull_iff] using h
    subst hnull
    rw [Action.bind_eq_of_ok hfactory, if_pos (Object.isNull_iff.mpr rfl)]
    simp

end Attempting

/-- A fault that the factory comes to, or the engine. -/
def Faults (factory : Action Object) (engine : Object → Action Object) (w : World) (p : Process)
    (f : Fault) : Prop :=
  (factory w p).answer = .error f ∨
    ∃ engaged, engagement factory engine w p = some engaged ∧ engaged.answer = .error f

/-- There is no descriptor, or no language that it stands for. -/
def StandsForNothing (factory : Action Object) (engine : Object → Action Object) (w : World)
    (p : Process) : Prop :=
  (factory w p).answer = .ok .null ∨
    ∃ engaged l, engagement factory engine w p = some engaged ∧ engaged.answer = .ok l ∧
      l.truth = .ok false

/-- A rejection: one more event is logged, with its reason, and the error comes out, or what keeps
that event from being written. -/
structure Rejected (name : Value) (tried checked : Outcome Object) (reason : String) (f : Fault) :
    Prop where
  logged : loggedEvents checked.effects = loggedEvents tried.effects ++ [failedEvent name reason]
  raised : tried.process.obstacle .error = none → checked.answer = .error f
  obstructed : ∀ o, tried.process.obstacle .error = some o → checked.answer = .error ↑o

section Verifying

variable {factory : Action Object} {engine : Object → Action Object} {w : World} {p : Process}

theorem attempt_effects : (attempt factory engine w p).effects = (factory w p).effects ++
    ((engagement factory engine w p).map Outcome.effects).getD [] := by
  cases he : engagement factory engine w p with
  | some engaged => rw [attempt_of_some he]; rfl
  | none => rw [(attempt_of_none he).1]; simp

theorem attempt_eq_error_iff {f : Fault} :
    (attempt factory engine w p).answer = .error f ↔ Faults factory engine w p f := by
  unfold Faults
  cases he : engagement factory engine w p with
  | some engaged =>
    obtain ⟨descriptor, hd, -, -⟩ := engagement_eq_some_iff.mp he
    rw [attempt_of_some he, hd]
    simp
  | none =>
    rw [(attempt_of_none he).1]
    simp

/-- An attempt comes to the language of the engine, or to the null of a factory that has no
descriptor. -/
theorem attempt_eq_ok_iff {l : Object} : (attempt factory engine w p).answer = .ok l ↔
    (∃ engaged, engagement factory engine w p = some engaged ∧ engaged.answer = .ok l) ∨
      (factory w p).answer = .ok .null ∧ l = .null := by
  cases he : engagement factory engine w p with
  | some engaged =>
    obtain ⟨descriptor, hd, hne, -⟩ := engagement_eq_some_iff.mp he
    rw [attempt_of_some he, hd]
    simp [hne]
  | none =>
    obtain ⟨hattempt, hnull⟩ := attempt_of_none he
    rw [hattempt]
    constructor
    · intro hl
      cases hnull l hl
      exact .inr ⟨hl, rfl⟩
    · rintro (⟨engaged, hengaged, -⟩ | ⟨hl, rfl⟩)
      · cases hengaged
      · exact hl

/-- What a check does beyond its attempt is done about an event. -/
theorem verify_effects (name : Value) : ∃ notices,
    (verify name factory engine w p).effects = (attempt factory engine w p).effects ++ notices ∧
      ∀ e ∈ notices, e.isLogging := by
  cases ending name (attempt factory engine w p) with
  | passed ha ht => exact ⟨[], by rw [verify_of_passed rfl ha ht]; simp, by simp⟩
  | slipped hs => exact ⟨[], by rw [verify_of_slips rfl hs]; simp, by simp⟩
  | stopped ha ho => exact ⟨[], by rw [verify_of_stopped rfl ha ho]; simp, by simp⟩
  | rejected hr =>
    rw [verify_of_rejects rfl hr]
    exact ⟨_, rfl, fun e he => Action.isLogging_of_mem_log he⟩

/-- A check passes with the engine's language, if that is not empty. -/
theorem verify_eq_ok_iff {name : Value} {x : Object} :
    (verify name factory engine w p).answer = .ok x ↔
      ∃ engaged, engagement factory engine w p = some engaged ∧ engaged.answer = .ok x ∧
        x.truth = .ok true := by
  constructor
  · intro h
    cases ending name (attempt factory engine w p) with
    | @passed l ha ht =>
      rw [verify_of_passed rfl ha ht] at h
      cases h
      obtain ⟨engaged, he, hx⟩ | ⟨-, rfl⟩ := attempt_eq_ok_iff.mp ha
      · exact ⟨engaged, he, hx, ht⟩
      · cases ht
    | slipped hs =>
      rw [verify_of_slips rfl hs] at h
      cases h
    | stopped ha ho =>
      rw [verify_of_stopped rfl ha ho] at h
      cases h
    | rejected hr =>
      rw [verify_of_rejects rfl hr] at h
      cases hn : (attempt factory engine w p).process.obstacle .error <;> simp [hn] at h
  · rintro ⟨engaged, he, hx, ht⟩
    rw [verify_of_passed rfl (attempt_eq_ok_iff.mpr (.inl ⟨engaged, he, hx⟩)) ht]

theorem rejected_of_rejects {name : Value} {reason : String} {f : Fault}
    (h : Rejects name (attempt factory engine w p) reason f) :
    Rejected name (attempt factory engine w p) (verify name factory engine w p) reason f := by
  rw [verify_of_rejects rfl h]
  constructor
  · rw [loggedEvents_append, Action.loggedEvents_log]
  · intro hn
    rw [hn]
  · intro o ho
    rw [ho]

end Verifying

end Check

namespace Operation

variable {w : World} {p : Process} {made : Option (Except Fault Object)} {engine : Option Engine}

theorem engagedObjects_factoryOr : engagedObjects (factoryOr made w p).effects = [] := by
  cases made with
  | some made => rfl
  | none => exact Loader.engagedObjects_language w p

theorem engineOr_effects (descriptor : Object) :
    (engineOr engine descriptor w p).effects = [.engaged descriptor] := by
  cases engine <;> rfl

theorem engineOr_process (descriptor : Object) : (engineOr engine descriptor w p).process = p := by
  cases engine <;> rfl

/-- The engine is given what the factory makes, once, unless that is null. -/
theorem engagedObjects_verify (name : Value) :
    engagedObjects (Check.verify name (factoryOr made) (engineOr engine) w p).effects =
      match (factoryOr made w p).answer with
        | .ok descriptor => if descriptor.isNull then [] else [descriptor]
        | .error _ => [] := by
  obtain ⟨notices, heffects, hnotices⟩ :=
    @Check.verify_effects (factoryOr made) (engineOr engine) w p name
  have hnone : engagedObjects notices = [] := by
    refine List.filterMap_eq_nil_iff.mpr fun e he => ?_
    have hlogging := hnotices e he
    cases e with
    | engaged => cases hlogging
    | _ => rfl
  rw [heffects, engagedObjects_append, hnone, List.append_nil, Check.attempt_effects,
    engagedObjects_append, engagedObjects_factoryOr, List.nil_append]
  unfold Check.engagement
  cases (factoryOr made w p).answer with
  | error f => rfl
  | ok descriptor =>
    cases hn : descriptor.isNull with
    | true => simp [hn, engagedObjects]
    | false => simp [engineOr_effects, engagedObjects, Effect.engagedObject?, hn]

/-- Before a check reports, no event of a report is logged. -/
theorem subject_of_mem_attempt {event : Logging.Event}
    (h : event ∈ loggedEvents (Check.attempt (factoryOr made) (engineOr engine) w p).effects) :
    event.subject ≠ .str "grammar_load_failed" := by
  rw [Check.attempt_effects, loggedEvents_append, List.mem_append] at h
  obtain h | h := h
  · cases made with
    | some made => cases h
    | none => exact Loader.subject_of_mem_language h
  · cases he : Check.engagement (factoryOr made) (engineOr engine) w p with
    | none => simp [he, loggedEvents] at h
    | some engaged =>
      obtain ⟨descriptor, -, -, rfl⟩ := Check.engagement_eq_some_iff.mp he
      simp [he, engineOr_effects, loggedEvents, Effect.loggedEvent?] at h

/-- An attempt changes nothing in a process but its library. -/
theorem attempt_process : ∃ loaded,
    (Check.attempt (factoryOr made) (engineOr engine) w p).process = { p with loaded } := by
  have hfactory : ∃ loaded, (factoryOr made w p).process = { p with loaded } := by
    cases made with
    | some made => exact ⟨p.loaded, rfl⟩
    | none => exact Loader.language_process w p
  cases he : Check.engagement (factoryOr made) (engineOr engine) w p with
  | none => rwa [(Check.attempt_of_none he).1]
  | some engaged =>
    rw [Check.attempt_of_some he]
    obtain ⟨descriptor, -, -, rfl⟩ := Check.engagement_eq_some_iff.mp he
    rwa [engineOr_process]

/-- So what keeps a report from being written has been there before. -/
theorem obstacle_attempt (level : Logging.Level) :
    (Check.attempt (factoryOr made) (engineOr engine) w p).process.obstacle level =
      p.obstacle level := by
  obtain ⟨loaded, hprocess⟩ := @attempt_process w p made engine
  rw [hprocess]
  rfl

end Operation

namespace Check

/-- The outcome of a check, whatever its factory and its engine do.

The factory runs first; the engine is given its descriptor, unless that is null; and what is done
beyond that is done about an event. The check passes exactly with a language of the engine that is
not empty, and then nothing more is logged. A fault of either that may be answered becomes the cause
of the rejection and is logged once with its text, if it has one; without a text, what keeps it from
being made comes out and nothing is logged. Any other fault comes out as it is. Without a language
the rejection has no cause.

Started as an operation, a check finds in the way of its report what has been in the way before, and
that is nothing while the context is harmless. Its event is the only one of its kind, and the engine
is given what is said, and once. -/
theorem verify_outcome (name : Value) (w : World) (p : Process) :
    (∀ (factory : Action Object) (engine : Object → Action Object),
      let made := factory w p
      let tried := attempt factory engine w p
      let checked := verify name factory engine w p
      (∀ engaged, engagement factory engine w p = some engaged ↔
        ∃ descriptor, made.answer = .ok descriptor ∧ descriptor ≠ .null ∧
          engaged = engine descriptor w made.process) ∧
      tried.effects =
        made.effects ++ ((engagement factory engine w p).map Outcome.effects).getD [] ∧
      (∃ notices, checked.effects = tried.effects ++ notices ∧ ∀ e ∈ notices, e.isLogging) ∧
      (∀ x, checked.answer = .ok x ↔
        ∃ engaged, engagement factory engine w p = some engaged ∧ engaged.answer = .ok x ∧
          x.truth = .ok true) ∧
      (∀ x, checked.answer = .ok x → checked.effects = tried.effects) ∧
      (∀ f reason, Faults factory engine w p f → f.failure.isOrdinary → f.text = .ok reason →
        Rejected name tried checked reason (.dueTo (.grammarRejected name) f)) ∧
      (∀ f g, Faults factory engine w p f → f.failure.isOrdinary → f.text = .error g →
        checked.answer = .error g ∧ checked.effects = tried.effects) ∧
      (∀ f, Faults factory engine w p f → f.failure.isOrdinary = false →
        checked.answer = .error f ∧ checked.effects = tried.effects) ∧
      (StandsForNothing factory engine w p →
        Rejected name tried checked "empty language" ↑(Failure.grammarRejected name))) ∧
    (Failure.grammarRejected name).text = .ok ("Error loading " ++ name.shown ++ " grammar") ∧
    (Failure.grammarRejected name).attributes.lookup "name" = some name ∧
    (∀ (made : Option (Except Fault Object)) (engine : Option Engine),
      let factory := Operation.factoryOr made
      let tried := attempt factory (Operation.engineOr engine) w p
      let checked := verify name factory (Operation.engineOr engine) w p
      (Operation.verify name made engine).run w p =
        ⟨checked.answer.map .object, checked.process, checked.effects⟩ ∧
      tried.process.obstacle .error = p.obstacle .error ∧
      (Logging.Harmless p.context → p.obstacle .error = none) ∧
      (∀ event ∈ loggedEvents tried.effects, event.subject ≠ .str "grammar_load_failed") ∧
      engagedObjects checked.effects = match (factory w p).answer with
        | .ok descriptor => if descriptor.isNull then [] else [descriptor]
        | .error _ => []) := by
  refine ⟨?_, rfl, rfl, ?_⟩
  · intro factory engine made tried checked
    refine ⟨fun engaged => engagement_eq_some_iff, attempt_effects, verify_effects name,
      fun x => verify_eq_ok_iff, ?_, ?_, ?_, ?_, ?_⟩
    · intro x hx
      obtain ⟨engaged, he, hanswer, ht⟩ := verify_eq_ok_iff.mp hx
      have ha : tried.answer = .ok x := attempt_eq_ok_iff.mpr (.inl ⟨engaged, he, hanswer⟩)
      have hpassed : checked = _ := verify_of_passed rfl ha ht
      rw [hpassed]
    · intro f reason hf ho ht
      exact rejected_of_rejects (.failed (attempt_eq_error_iff.mpr hf) ho ht)
    · intro f g hf ho ht
      have hslipped : checked = _ := verify_of_slips rfl (.text (attempt_eq_error_iff.mpr hf) ho ht)
      rw [hslipped]
      exact ⟨rfl, rfl⟩
    · intro f hf ho
      have hstopped : checked = _ := verify_of_stopped rfl (attempt_eq_error_iff.mpr hf) ho
      rw [hstopped]
      exact ⟨rfl, rfl⟩
    · rintro (hnull | ⟨engaged, l, he, ha, ht⟩)
      · exact rejected_of_rejects (.empty (attempt_eq_ok_iff.mpr (.inr ⟨hnull, rfl⟩)) rfl)
      · exact rejected_of_rejects (.empty (attempt_eq_ok_iff.mpr (.inl ⟨engaged, he, ha⟩)) ht)
  · intro made engine factory tried checked
    exact ⟨Operation.verify_run name made engine w p, Operation.obstacle_attempt .error,
      fun hc => p.obstacle_of_harmless hc .error,
      fun event => Operation.subject_of_mem_attempt, Operation.engagedObjects_verify name⟩

/-- A descriptor that is false, and an engine that fails with what looks like the check's own
error. -/
theorem verify_outcome_false :
    let refusal : Fault := ↑(Failure.grammarRejected (.str "other"))
    let made : Except Fault Object := .ok (.value (.bool false))
    let w := World.naming (.exporting [])
    let ran := (Operation.verify (.str grammarName) (some made) (some fun _ => .error refusal)).run
      w {}
    refusal.failure.isOrdinary ∧
      ran.answer = .error (.dueTo (.grammarRejected (.str grammarName)) refusal) ∧
      loggedEvents ran.effects =
        [failedEvent (.str grammarName) "Error loading other grammar"] ∧
      engagedObjects ran.effects = [.value (.bool false)] := by
  intro refusal made w ran
  obtain ⟨houtcome, -, -, hoperation⟩ := verify_outcome (.str grammarName) w {}
  obtain ⟨hran, hobstacle, hharmless, -, hengaged⟩ :=
    hoperation (some made) (some fun _ => .error refusal)
  obtain ⟨-, -, -, -, -, hrejected, -⟩ := houtcome (Action.ofExcept made)
    (engage fun _ => .error refusal)
  obtain ⟨hlogged, hraised, -⟩ := hrejected refusal _ (.inr ⟨_, rfl, rfl⟩) rfl rfl
  refine ⟨rfl, ?_, ?_, ?_⟩
  · rw [show ran = _ from hran]
    exact congrArg (Except.map Answer.object) (hraised (hobstacle.trans (hharmless .nil)))
  · rw [show ran = _ from hran]
    exact hlogged
  · rw [show ran = _ from hran]
    exact hengaged

/-- An engine whose fault has no text, and one whose fault cannot be written because of what is
bound for the stack of a line: the check's own error does not come out, and of the first nothing is
logged. -/
theorem verify_outcome_escapes :
    let reason : Failure := .foreign .badValue [.str "no text"]
    let mute : Fault := ↑(Failure.silent .runtime [] reason [])
    let refusal : Fault := ↑(Failure.foreign .runtime [.str "bad version"])
    let w := World.naming (.exporting [])
    let p : Process :=
      { logging := some ⟨20, .console⟩, context := [("stack", .int (.mk 5))] }
    let checks (q : Process) (f : Fault) := verify (.str grammarName)
      (Action.ofExcept (.ok (.value (.int (.mk 1))))) (engage fun _ => .error f) w q
    mute.failure.isOrdinary ∧ (checks {} mute).answer = .error ↑reason ∧
      loggedEvents (checks {} mute).effects = [] ∧
    refusal.failure.isOrdinary ∧
      (checks p refusal).answer = .error ↑(Failure.notAppendable "int") ∧
      loggedEvents (checks p refusal).effects = [failedEvent (.str grammarName) "bad version"] := by
  intro reason mute refusal w p checks
  exact ⟨rfl, rfl, rfl, rfl, rfl, rfl⟩

end Check

end GrammarLoader
