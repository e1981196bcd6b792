import GrammarLoader.Proofs.Loader.Source

/-!
# How the check reports

A check is to report whatever its attempt fails with in a single way: one event, and one error with
what it failed with as its cause. The factory and the engine are guarded by that; the truth test of
the engine's language is not, and neither is the handler itself, which makes the text of the fault
first. A test that fails and a text that cannot be made pass their own fault on, and nothing is
logged. So the promise is kept exactly where neither happens and the event can be written.
-/

namespace GrammarLoader

namespace Check

theorem failedEvent_isPlain (name : Value) (reason : String) : (failedEvent name reason).IsPlain :=
  Logging.Event.named_isPlain rfl rfl

/-- Why an attempt is rejected: the reason that is logged and the fault that is passed on. -/
inductive Rejects (name : Value) (tried : Outcome Object) : String → Fault → Prop
  | failed {f : Fault} {reason : String} (ha : tried.answer = .error f)
    (ho : f.failure.isOrdinary) (ht : f.text = .ok reason) :
    Rejects name tried reason (.dueTo (.grammarRejected name) f)
  | empty {l : Object} (ha : tried.answer = .ok l) (ht : l.truth = .ok false) :
    Rejects name tried "empty language" ↑(Failure.grammarRejected name)

theorem Rejects.failure {name : Value} {tried : Outcome Object} {reason : String} {f : Fault}
    (h : Rejects name tried reason f) : f.failure = .grammarRejected name := by
  cases h <;> rfl

/-- The faults that come up behind the guard: of the truth test, and of making the text of a fault
that is to be reported. -/
inductive Slips (tried : Outcome Object) : Fault → Prop
  | truth {l : Object} {g : Fault} (ha : tried.answer = .ok l) (ht : l.truth = .error g) :
    Slips tried g
  | text {f g : Fault} (ha : tried.answer = .error f) (ho : f.failure.isOrdinary)
    (ht : f.text = .error g) : Slips tried g

/-- How an attempt ends, as the check sees it. -/
inductive Ending (name : Value) (tried : Outcome Object) : Prop
  | passed {l : Object} (ha : tried.answer = .ok l) (ht : l.truth = .ok true)
  | slipped {g : Fault} (hs : Slips tried g)
  | stopped {f : Fault} (ha : tried.answer = .error f) (ho : f.failure.isOrdinary = false)
  | rejected {reason : String} {f : Fault} (hr : Rejects name tried reason f)

theorem ending (name : Value) (tried : Outcome Object) : Ending name tried := by
  cases ha : tried.answer with
  | ok l =>
    cases ht : l.truth with
    | error f => exact .slipped (.truth ha ht)
    | ok full =>
      cases full with
      | true => exact .passed ha ht
      | false => exact .rejected (.empty ha ht)
  | error f =>
    cases ho : f.failure.isOrdinary with
    | false => exact .stopped ha ho
    | true =>
      cases ht : f.text with
      | ok reason => exact .rejected (.failed ha ho ht)
      | error g => exact .slipped (.text ha ho ht)

/-- Logging a rejection and passing it on. -/
theorem reject_apply (name : Value) (reason : String) (f : Fault) (w : World) (p : Process) :
    ((Action.log (failedEvent name reason) >>= fun _ => Action.fail f) : Action Object) w p =
      ⟨match p.obstacle .error with
        | none => .error f
        | some o => .error ↑o, p, (Action.log (failedEvent name reason) w p).effects⟩ := by
  have hlog := Action.log_answer w p (failedEvent_isPlain name reason)
  rw [show (failedEvent name reason).level = .error from rfl] at hlog
  cases hn : p.obstacle .error with
  | none =>
    rw [hn] at hlog
    rw [Action.bind_of_ok hlog, Action.log_process]
    simp [Action.fail]
  | some o =>
    rw [hn] at hlog
    rw [Action.bind_of_error hlog, Action.log_process]

theorem report_of_text {f : Fault} {reason : String} (ht : f.text = .ok reason) (name : Value)
    (w : World) (p : Process) : report name f w p =
      ⟨match p.obstacle .error with
        | none => .error (.dueTo (.grammarRejected name) f)
        | some o => .error ↑o, p, (Action.log (failedEvent name reason) w p).effects⟩ := by
  unfold report
  rw [ht, Action.bind_eq_of_ok rfl, reject_apply]
  simp

/-- Without a text nothing is reported. -/
theorem report_of_silent {f g : Fault} (ht : f.text = .error g) (name : Value) (w : World)
    (p : Process) : report name f w p = ⟨.error g, p, []⟩ := by
  unfold report
  rw [ht, Action.bind_eq_of_error rfl]

section Verifying

variable {name : Value} {factory : Action Object} {engine : Object → Action Object} {w : World}
  {p : Process} {tried : Outcome Object} (htried : attempt factory engine w p = tried)
include htried

theorem guarded_of_ok {l : Object} (ha : tried.answer = .ok l) :
    (attempt factory engine).orRecover (report name) w p =
      ⟨.ok l, tried.process, tried.effects⟩ := by
  rw [Action.orRecover_of_ok (by rw [htried, ha]), htried]

theorem verify_of_passed {l : Object} (ha : tried.answer = .ok l) (ht : l.truth = .ok true) :
    verify name factory engine w p = ⟨.ok l, tried.process, tried.effects⟩ := by
  unfold verify
  rw [Action.bind_eq_of_ok (guarded_of_ok htried ha), ht, Action.bind_eq_of_ok rfl]
  simp

/-- A fault that slips past the guard comes out as it is. -/
theorem verify_of_slips {g : Fault} (hs : Slips tried g) :
    verify name factory engine w p = ⟨.error g, tried.process, tried.effects⟩ := by
  unfold verify
  cases hs with
  | truth ha ht =>
    rw [Action.bind_eq_of_ok (guarded_of_ok htried ha), ht, Action.bind_eq_of_error rfl]
    simp
  | text ha ho ht =>
    have hguarded : (attempt factory engine).orRecover (report name) w p = _ :=
      Action.orRecover_of_ordinary (by rw [htried, ha]) ho
    rw [htried, report_of_silent ht] at hguarded
    rw [Action.bind_eq_of_error hguarded]
    simp

theorem verify_of_stopped {f : Fault} (ha : tried.answer = .error f)
    (ho : f.failure.isOrdinary = false) :
    verify name factory engine w p = ⟨.error f, tried.process, tried.effects⟩ := by
  have hguarded : (attempt factory engine).orRecover (report name) w p =
      ⟨.error f, tried.process, tried.effects⟩ := by
    rw [Action.orRecover_of_not_ordinary (by rw [htried, ha]) ho, htried]
  unfold verify
  rw [Action.bind_eq_of_error hguarded]

theorem verify_of_rejects {reason : String} {f : Fault} (hr : Rejects name tried reason f) :
    verify name factory engine w p = ⟨match tried.process.obstacle .error with
      | none => .error f
      | some o => .error ↑o, tried.process,
      tried.effects ++ (Action.log (failedEvent name reason) w tried.process).effects⟩ := by
  unfold verify
  cases hr with
  | failed ha ho ht =>
    have hguarded : (attempt factory engine).orRecover (report name) w p = _ :=
      Action.orRecover_of_ordinary (by rw [htried, ha]) ho
    rw [htried, report_of_text ht] at hguarded
    cases hn : tried.process.obstacle .error with
    | none =>
      rw [hn] at hguarded
      rw [Action.bind_eq_of_error hguarded]
    | some o =>
      rw [hn] at hguarded
      rw [Action.bind_eq_of_error hguarded]
  | empty ha ht =>
    rw [Action.bind_eq_of_ok (guarded_of_ok htried ha), ht, Action.bind_eq_of_ok rfl]
    simp only [Bool.false_eq_true, if_false, List.nil_append]
    rw [reject_apply]

theorem verify_process : (verify name factory engine w p).process = tried.process := by
  cases ending name tried with
  | passed ha ht => rw [verify_of_passed htried ha ht]
  | slipped hs => rw [verify_of_slips htried hs]
  | stopped ha ho => rw [verify_of_stopped htried ha ho]
  | rejected hr => rw [verify_of_rejects htried hr]

end Verifying

/-- The attempt or the truth test of its language fails. -/
def Raises (tried : Outcome Object) (f : Fault) : Prop :=
  tried.answer = .error f ∨ ∃ l, tried.answer = .ok l ∧ l.truth = .error f

/-- What is promised of a check, by the outcome of its attempt. -/
structure Reports (name : Value) (tried checked : Outcome Object) : Prop where
  /-- A fault becomes the cause of the one error, and is logged once, with its text if there is
  one. -/
  converts : ∀ f, Raises tried f → f.failure.isOrdinary →
    checked.answer = .error (.dueTo (.grammarRejected name) f) ∧
      ∃ reason, (∀ s, f.text = .ok s → reason = s) ∧
        loggedEvents checked.effects = loggedEvents tried.effects ++ [failedEvent name reason]
  /-- No other error comes out that code may answer. -/
  nothingElse : ∀ f, checked.answer = .error f → f.failure.isOrdinary →
    f.failure = .grammarRejected name

/-- The truth test of the engine's language does not fail with an error that code may answer. -/
def TruthHolds (tried : Outcome Object) : Prop :=
  ∀ l f, tried.answer = .ok l → l.truth = .error f → f.failure.isOrdinary = false

/-- The text of a fault that is to be reported can be made. -/
def TextHolds (tried : Outcome Object) : Prop :=
  ∀ f, tried.answer = .error f → f.failure.isOrdinary → f.HasText

/-- A rejection can be written to the log, if there is one. -/
def CanReport (name : Value) (tried : Outcome Object) : Prop :=
  ∀ reason f, Rejects name tried reason f → tried.process.obstacle .error = none

theorem ne_dueTo (failure : Failure) (f : Fault) : f ≠ .dueTo failure f := by
  intro h
  have hcauses := congrArg (fun g : Fault => g.causes.length) h
  simp only [Fault.dueTo, List.length_cons] at hcauses
  omega

section Reporting

variable {name : Value} {factory : Action Object} {engine : Object → Action Object} {w : World}
  {p : Process} {tried : Outcome Object} (htried : attempt factory engine w p = tried)
include htried

theorem truthHolds_of_reports (h : Reports name tried (verify name factory engine w p)) :
    TruthHolds tried := by
  intro l f ha ht
  cases ho : f.failure.isOrdinary with
  | false => rfl
  | true =>
    -- the fault of the test comes out as it is, and would have to be its own cause
    have hconverts := (h.converts f (.inr ⟨l, ha, ht⟩) ho).1
    rw [verify_of_slips htried (.truth ha ht)] at hconverts
    exact absurd (Except.error.inj hconverts) (ne_dueTo _ f)

theorem textHolds_of_reports (h : Reports name tried (verify name factory engine w p)) :
    TextHolds tried := by
  intro f ha ho
  cases ht : f.text with
  | ok s => exact ⟨s, ht⟩
  | error g =>
    -- without a text the promised event is not logged
    obtain ⟨-, reason, -, hlogged⟩ := h.converts f (.inl ha) ho
    rw [verify_of_slips htried (.text ha ho ht)] at hlogged
    simp at hlogged

theorem canReport_of_reports (h : Reports name tried (verify name factory engine w p)) :
    CanReport name tried := by
  intro reason f hr
  cases hn : tried.process.obstacle .error with
  | none => rfl
  | some o =>
    -- the obstacle to the event comes out in place of the check's own error
    obtain ⟨type, rfl⟩ := Process.obstacle_eq_notAppendable hn
    have hnothingElse := h.nothingElse ↑(Failure.notAppendable type)
    rw [verify_of_rejects htried hr, hn] at hnothingElse
    exact absurd (hnothingElse rfl rfl) nofun

/-- The promise is kept exactly where the truth test holds, a text is made and a rejection can be
written. -/
theorem verify_reports_iff : Reports name tried (verify name factory engine w p) ↔
    TruthHolds tried ∧ TextHolds tried ∧ CanReport name tried := by
  constructor
  · intro h
    exact ⟨truthHolds_of_reports htried h, textHolds_of_reports htried h,
      canReport_of_reports htried h⟩
  · intro h
    obtain ⟨htruth, htext, hcan⟩ := h
    constructor
    · intro f hf ho
      obtain ha | ⟨l, ha, ht⟩ := hf
      · obtain ⟨reason, ht⟩ := htext f ha ho
        have hr : Rejects name tried reason _ := .failed ha ho ht
        rw [verify_of_rejects htried hr, hcan _ _ hr]
        refine ⟨rfl, reason, fun s hs => Except.ok.inj (ht.symm.trans hs), ?_⟩
        rw [loggedEvents_append, Action.loggedEvents_log]
      · rw [htruth l f ha ht] at ho
        cases ho
    · intro f hf ho
      cases ending name tried with
      | passed ha ht =>
        rw [verify_of_passed htried ha ht] at hf
        cases hf
      | slipped hs =>
        rw [verify_of_slips htried hs] at hf
        cases hf
        cases hs with
        | truth ha ht =>
          rw [htruth _ _ ha ht] at ho
          cases ho
        | text ha ho' ht =>
          obtain ⟨s, hs⟩ := htext _ ha ho'
          rw [ht] at hs
          cases hs
      | stopped ha ho' =>
        rw [verify_of_stopped htried ha ho'] at hf
        cases hf
        rw [ho'] at ho
        cases ho
      | rejected hr =>
        rw [verify_of_rejects htried hr, hcan _ _ hr] at hf
        cases hf
        exact hr.failure

end Reporting

end Check

namespace Smoke

variable {w : World} {p : Process}

theorem conclude_answer (hn : p.obstacle .error = none) (verdict : Option Value) :
    (conclude verdict w p).answer = .ok (if verdict.isSome then 1 else 0) := by
  have hinfo : p.obstacle .info = none := Process.obstacle_eq_none_of_le (by decide) hn
  cases verdict with
  | none =>
    have hlog := Action.log_answer w p (Logging.Event.IsReport.passed).isPlain
    rw [show passedEvent.level = .info from rfl, hinfo] at hlog
    show ((Action.log passedEvent >>= fun _ => pure 0) w p).answer = _
    rw [Action.bind_of_ok hlog]
    rfl
  | some name =>
    have hlog := Action.log_answer w p
      (Logging.Event.IsReport.failed (Failure.rejectedText name)).isPlain
    rw [show (failedEvent (Failure.rejectedText name)).level = .error from rfl, hn] at hlog
    show ((Action.log (failedEvent (Failure.rejectedText name)) >>= fun _ => pure 1) w p).answer = _
    rw [Action.bind_of_ok hlog]
    rfl

/-- The smoke check comes to a status unless the check fails with another error than its own. -/
theorem run_answer {setup : Logging.Setup}
    (hsetup : Logging.Setup.make w.settings .null .null = .ok setup)
    (hn : (Check.verifyOwn w { p with logging := some setup }).process.obstacle .error = none) :
    (run w p).answer = match (Check.verifyOwn w { p with logging := some setup }).answer with
      | .ok _ => .ok 0
      | .error f => if (rejectedName? f.failure).isSome then .ok 1 else .error f := by
  rw [run_apply, hsetup]
  dsimp only
  have hverdict := verdictOf_answer Check.verifyOwn w { p with logging := some setup }
  cases ha : (Check.verifyOwn w { p with logging := some setup }).answer with
  | ok l =>
    rw [ha] at hverdict
    rw [Action.bind_of_ok hverdict, verdictOf_process]
    exact conclude_answer hn none
  | error f =>
    rw [ha] at hverdict
    dsimp only at hverdict ⊢
    cases hf : rejectedName? f.failure with
    | some name =>
      rw [hf] at hverdict
      rw [Action.bind_of_ok hverdict, verdictOf_process]
      exact conclude_answer hn (some name)
    | none =>
      rw [hf] at hverdict
      rw [Action.bind_of_error hverdict]
      rfl

end Smoke

namespace Check

/-- What comes out of the smoke check that code may answer, once logging is configured and its
events can be written: a fault that slips past the guard, unless it looks like the check's own
error. -/
theorem smoke_quiet_iff {w : World} {p : Process} {setup : Logging.Setup}
    (hsetup : Logging.Setup.make w.settings .null .null = .ok setup) {tried : Outcome Object}
    (htried : attempt Loader.language engageWorld w { p with logging := some setup } = tried)
    (hn : tried.process.obstacle .error = none) :
    (∀ f, (Smoke.run w p).answer = .error f → f.failure.isOrdinary = false) ↔
      ∀ g, Slips tried g → Smoke.rejectedName? g.failure = none → g.failure.isOrdinary = false := by
  have hprocess : (verify (.str grammarName) Loader.language engageWorld w
      { p with logging := some setup }).process = tried.process := verify_process htried
  have hanswer := Smoke.run_answer hsetup (by
    unfold verifyOwn
    rw [hprocess, hn])
  unfold verifyOwn at hanswer
  constructor
  · intro hquiet g hs hg
    apply hquiet
    rw [hanswer, verify_of_slips htried hs]
    simp [hg]
  · intro hslips f hf
    rw [hanswer] at hf
    cases ending (.str grammarName) tried with
    | passed ha ht =>
      rw [verify_of_passed htried ha ht] at hf
      cases hf
    | slipped hs =>
      rw [verify_of_slips htried hs] at hf
      dsimp only at hf
      split at hf
      · cases hf
      · rename_i hname
        cases hf
        exact hslips _ hs (by simpa using hname)
    | stopped ha ho =>
      rw [verify_of_stopped htried ha ho] at hf
      dsimp only at hf
      split at hf
      · cases hf
      · cases hf
        exact ho
    | rejected hr =>
      rw [verify_of_rejects htried hr, hn] at hf
      simp only [hr.failure, Smoke.rejectedName?, Option.isSome_some, if_true] at hf
      cases hf

/-- Of whatever a check is given, its promise is kept exactly where the truth test of the engine's
language holds, the text of a fault can be made and a rejection can be written; a truth test that
fails and a text that cannot be made pass their own fault on, and nothing is logged. So it goes for
the smoke check, once logging is configured. -/
theorem reports_iff (w : World) (p : Process) :
    (∀ (name : Value) (factory : Action Object) (engine : Object → Action Object),
      let tried := attempt factory engine w p
      let checked := verify name factory engine w p
      (Reports name tried checked ↔ TruthHolds tried ∧ TextHolds tried ∧ CanReport name tried) ∧
      ∀ g, Slips tried g → checked = ⟨.error g, tried.process, tried.effects⟩) ∧
    ∀ setup, Logging.Setup.make w.settings .null .null = .ok setup →
      let tried := attempt Loader.language engageWorld w { p with logging := some setup }
      tried.process.obstacle .error = none →
      ((∀ f, (Smoke.run w p).answer = .error f → f.failure.isOrdinary = false) ↔
        ∀ g, Slips tried g → Smoke.rejectedName? g.failure = none →
          g.failure.isOrdinary = false) := by
  constructor
  · intro name factory engine tried checked
    exact ⟨verify_reports_iff rfl, fun g hs => verify_of_slips rfl hs⟩
  · intro setup hsetup tried hn
    exact smoke_quiet_iff hsetup rfl hn

/-- An engine that takes no descriptor, once the parser is loaded. -/
theorem reports_iff_refused :
    let refusal : Fault := ↑(Failure.foreign .runtime [.str "bad version"])
    let w : World := { World.naming (.exporting []) with engine := fun _ => .error refusal }
    let p : Process := { loaded := some ⟨"/kpl.so", "/kpl.so", .ok (.address (.table 14))⟩ }
    let tried := attempt Loader.language engageWorld w p
    tried.answer = .error refusal ∧ Reports (.str grammarName) tried (verifyOwn w p) ∧
      ∀ f, (Smoke.run w p).answer = .error f → f.failure.isOrdinary = false := by
  intro refusal w p tried
  obtain ⟨hcheck, hsmoke⟩ := reports_iff w p
  have ha : tried.answer = .error refusal := rfl
  refine ⟨ha, ?_, ?_⟩
  · refine (hcheck (.str grammarName) Loader.language engageWorld).1.mpr ⟨?_, ?_, ?_⟩
    · intro l f hl
      cases ha.symm.trans hl
    · intro f hf _
      cases ha.symm.trans hf
      exact ⟨"bad version", rfl⟩
    · intro reason f hr
      rfl
  · have ha' : (attempt Loader.language engageWorld w
        { p with logging := some ⟨20, .console⟩ }).answer = .error refusal := rfl
    refine (hsmoke ⟨20, .console⟩ rfl rfl).mpr ?_
    intro g hs
    cases hs with
    | truth hl ht => cases ha'.symm.trans hl
    | text hf ho ht =>
      cases ha'.symm.trans hf
      cases ht

/-- A truth test that fails with an ordinary error: the error comes out and nothing is logged. -/
theorem truthTest_unreported :
    let fault : Fault := ↑(Failure.foreign .badValue [.str "no truth"])
    let w := World.naming (.exporting [])
    let factory := Action.ofExcept (.ok (.value (.int (.mk 1))))
    let engine := engage fun _ => .ok (.undecided fault)
    let checked := verify (.str grammarName) factory engine w {}
    fault.failure.isOrdinary ∧ checked.answer = .error fault ∧ loggedEvents checked.effects = [] ∧
      ¬ Reports (.str grammarName) (attempt factory engine w {}) checked := by
  intro fault w factory engine checked
  have ha : checked.answer = .error fault := rfl
  refine ⟨rfl, ha, rfl, ?_⟩
  intro h
  have hconverts := (h.converts fault (.inr ⟨.undecided fault, rfl, rfl⟩) rfl).1
  exact ne_dueTo _ fault (Except.error.inj (ha.symm.trans hconverts))

end Check

end GrammarLoader
