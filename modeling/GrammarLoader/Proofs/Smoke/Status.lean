import GrammarLoader.Proofs.Check.Report
import GrammarLoader.Proofs.Logging.Independence
import GrammarLoader.Proofs.Search.Breaking
import Mathlib.Control.Monad.Basic

/-!
# The smoke check comes to a status

With valid settings around, and foreign code that fails only with errors that a check can report,
the smoke check always comes to zero or one. Logging can be configured, since valid settings name a
threshold; each error of the search, of the load and of the engine becomes the one error of the
check; and that error becomes a status. Configuring logging changes nothing of what the check comes
to, so the status tells what a check would have come to without it. Where a text cannot be made or a
line cannot be written, there is no status.
-/

namespace GrammarLoader

/-- A fault that a check can report: code may answer it, and it has a text. -/
def Fault.IsReportable (f : Fault) : Prop := f.failure.isOrdinary ∧ f.HasText

/-- Foreign code that a check of the binding's own grammar may run fails only in certain ways, and
what the engine gives can be tested for truth. -/
structure World.FailsOnly (w : World) (p : Process) (fails : Fault → Prop) : Prop where
  refusal : ∀ path library f, w.libraries.lookup path = some library →
    library.refusal = some f → fails f
  parser : ∀ path library (f : Fault), w.libraries.lookup path = some library →
    f.ComesFrom library.call → fails f
  loaded : ∀ l (f : Fault), p.loaded = some l → f.ComesFrom l.symbol.call → fails f
  engine : ∀ descriptor f, w.engine descriptor = .error f → fails f
  truth : ∀ descriptor language, w.engine descriptor = .ok language → ∃ b, language.truth = .ok b

namespace World

variable {w : World} {p : Process} {library : Library} {fails : Fault → Prop}

/-- Around a single library and the engine proper, with nothing loaded, what fails is the library,
or the engine at something that is no capsule. -/
theorem failsOnly_of_single (hlibraries : w.libraries = [("/kpl.so", library)])
    (hengine : w.engine = Behaviour.languageOf) (hloaded : p.loaded = none)
    (hrefusal : ∀ f, library.refusal = some f → fails f)
    (hcall : ∀ f : Fault, f.ComesFrom library.call → fails f)
    (htype : fails ↑(Failure.foreign .badType [.str "an integer is required"])) :
    w.FailsOnly p fails := by
  have hfound {path : String} {found : Library} (h : w.libraries.lookup path = some found) :
      found = library := by
    rw [hlibraries, List.lookup_cons] at h
    split at h
    · exact (Option.some.inj h).symm
    · cases h
  constructor
  · intro path found f h hf
    rw [hfound h] at hf
    exact hrefusal f hf
  · intro path found f h hf
    rw [hfound h] at hf
    exact hcall f hf
  · intro l f hl
    rw [hloaded] at hl
    cases hl
  · intro descriptor f hf
    rw [hengine] at hf
    unfold Behaviour.languageOf at hf
    split at hf <;> cases hf
    exact htype
  · intro descriptor language hl
    rw [hengine] at hl
    unfold Behaviour.languageOf at hl
    split at hl <;> cases hl
    exact ⟨true, rfl⟩

/-- A symbol that gives an address does not fail. -/
theorem not_comesFrom_exporting {symbols : List String} {f : Fault} :
    ¬ f.ComesFrom (Library.exporting symbols).call := by
  rintro (hf | ⟨o, ho, ht⟩)
  · cases hf
  · cases ho
    cases ht

end World

namespace Contract

/-- Keeps the context harmless and the faults of a loaded parser reportable, and fails only with
faults that can be reported. -/
def reportable : Contract where
  keeps p := Logging.Harmless p.context ∧
    ∀ l (f : Fault), p.loaded = some l → f.ComesFrom l.symbol.call → f.IsReportable
  does _ := True
  fails := Fault.IsReportable
  does_nil := trivial
  does_append _ _ := trivial

variable {w : World} {p : Process}

theorem reportable_log {e : Logging.Event} (he : e.IsPlain) :
    reportable.Binds w (fun _ => True) (Action.log e) := by
  intro q hq
  refine ⟨by rwa [Action.log_process], trivial, fun f hf => ?_, fun _ _ => trivial⟩
  rw [Action.log_answer w q he, q.obstacle_of_harmless hq.1] at hf
  cases hf

theorem reportable_serves : reportable.Serves w (fun _ => True) where
  texts _ := trivial
  calls _ := trivial
  engages _ := trivial
  logs _ he _ := reportable_log he.isPlain
  wraps := ⟨⟨rfl, _, rfl⟩, ⟨rfl, _, rfl⟩⟩
  silences f g hf ht := by
    obtain ⟨-, s, hs⟩ := hf
    rw [hs] at ht
    cases ht
  rejects _ _ _ := ⟨rfl, _, rfl⟩
  empties _ := ⟨rfl, _, rfl⟩

/-- Whatever keeps the search from finding a library can be reported. -/
theorem reportable_locate (hv : w.settings.Valid) :
    reportable.Binds w (fun _ => True) Search.locate := by
  refine binds_locate (fun _ _ => trivial) (fun q f hf => ?_) fun _ _ _ => trivial
  obtain ⟨e, -, rfl⟩ | ⟨tried, rfl⟩ := Search.locate_error_cases hv hf <;> exact ⟨rfl, _, rfl⟩

/-- What becomes of a reportable fault on opening can be reported. -/
theorem reportable_openingFault (path : String) {f : Fault} (h : f.IsReportable) :
    (Loader.openingFault path f).IsReportable := by
  obtain ⟨-, details, ht⟩ := id h
  cases hs : f.failure.isSystem with
  | false => rwa [Loader.openingFault_of_not_system path hs]
  | true =>
    rw [Loader.openingFault_of_text path hs ht]
    exact ⟨rfl, _, rfl⟩

section Reportable

variable (hv : w.settings.Valid) (ha : w.FailsOnly p Fault.IsReportable)
include hv ha

theorem reportable_load : reportable.Binds w reportable.Trusts Loader.load := by
  have hrefused {path : String} {f : Fault} (ho : w.opening path = .error f) :
      f.IsReportable := by
    obtain rfl | ⟨library, hl, hr⟩ := World.opening_error_cases ho
    · exact ⟨rfl, _, rfl⟩
    · exact ha.refusal path library f hl hr
  have hprovided {l : Loaded} (hp : w.Provides l) (f : Fault) (hf : f.ComesFrom l.symbol.call) :
      f.IsReportable := by
    obtain ⟨library, ho, -, hs⟩ := hp
    rw [hs] at hf
    exact ha.parser _ library f (World.lookup_of_opening ho) hf
  have hloads : reportable.Loads w (fun _ => True) reportable.Trusts :=
    { opens := fun _ _ => trivial
      refuses := fun path f ho => reportable_openingFault path (hrefused ho)
      lacks := fun path library f _ hf => by
        unfold Loader.parserSymbol at hf
        split at hf
        · cases hf
        · cases hf
          exact ⟨rfl, _, rfl⟩
      announces := fun path => reportable_log (Loader.loadedEvent_isPlain path)
      remembers := fun q l hq _ hp => ⟨hq.1, fun m f hm => by
        cases hm
        exact hprovided hp f⟩
      remembered := fun q l hq hl f hf => hq.2 l f hl hf }
  exact hloads.load (reportable_locate hv)

/-- The attempt of the check fails with faults that can be reported, and what it comes to can be
tested for truth. -/
theorem reportable_attempt : reportable.Binds w (fun language => ∃ b, language.truth = .ok b)
    (Check.attempt Loader.language Check.engageWorld) := by
  refine binds_attempt ⟨false, rfl⟩ (reportable_serves.language (reportable_load hv ha)) ?_
  intro descriptor q hq
  have hengage : reportable.Binds w (fun language => ∃ b, language.truth = .ok b)
      (Check.engage w.engine descriptor) :=
    Binds.bind (binds_perform trivial) fun _ _ =>
      binds_ofExcept (ha.engine descriptor) (ha.truth descriptor)
  exact hengage q hq

end Reportable

end Contract

/-- How a check of a grammar ends if nothing slips past its guard: the engine's language comes out,
or a rejection is logged and comes out as the error of the check. -/
inductive Check.Decided (name : Value) (checked : Outcome Object) : Prop
  | passed {language : Object} (ha : checked.answer = .ok language)
  | rejected {f : Fault} {before : List Logging.Event} {reason : String}
    (hf : f.failure = .grammarRejected name) (ha : checked.answer = .error f)
    (hl : loggedEvents checked.effects = before ++ [failedEvent name reason])

theorem Check.verifyOwn_decided {w : World} {p : Process} (hv : w.settings.Valid)
    (ha : w.FailsOnly p Fault.IsReportable) (hc : Logging.Harmless p.context) :
    Decided (.str grammarName) (verifyOwn w p) ∧
      Logging.Harmless (verifyOwn w p).process.context := by
  obtain ⟨tried, htried⟩ : ∃ tried, attempt Loader.language engageWorld w p = tried := ⟨_, rfl⟩
  obtain ⟨hprocess, -, hfault, htruth⟩ := Contract.reportable_attempt hv ha p ⟨hc, ha.loaded⟩
  rw [htried] at hprocess hfault htruth
  unfold verifyOwn
  rw [verify_process htried]
  refine ⟨?_, hprocess.1⟩
  cases ending (.str grammarName) tried with
  | passed hl ht =>
    rw [verify_of_passed htried hl ht]
    exact .passed rfl
  | slipped hs =>
    -- both ways past the guard are closed: the test does not fail, and there is a text
    cases hs with
    | truth hl ht =>
      obtain ⟨b, hb⟩ := htruth _ hl
      rw [hb] at ht
      cases ht
    | text hf _ ht =>
      obtain ⟨-, s, hs⟩ := hfault _ hf
      rw [hs] at ht
      cases ht
  | stopped hf ho =>
    rw [(hfault _ hf).1] at ho
    cases ho
  | @rejected reason f hr =>
    have hlogged : loggedEvents (tried.effects ++
        (Action.log (failedEvent (.str grammarName) reason) w tried.process).effects) =
        loggedEvents tried.effects ++ [failedEvent (.str grammarName) reason] := by
      rw [loggedEvents_append, Action.loggedEvents_log]
    rw [verify_of_rejects htried hr, Process.obstacle_of_harmless hprocess.1]
    exact .rejected hr.failure rfl hlogged

namespace Smoke

open Check

variable {w : World} {p : Process}

/-- The event that a verdict ends with. -/
def verdictEvent : Option Value → Logging.Event
  | none => passedEvent
  | some name => failedEvent (Failure.rejectedText name)

theorem conclude_effects (verdict : Option Value) (w : World) (p : Process) :
    (conclude verdict w p).effects = (Action.log (verdictEvent verdict) w p).effects := by
  cases verdict with
  | none => exact congrArg Outcome.effects (Action.bind_pure_apply _ (fun _ => 0) w p)
  | some name => exact congrArg Outcome.effects (Action.bind_pure_apply _ (fun _ => 1) w p)

/-- What the smoke check comes to and logs, once its check is decided. -/
theorem concluded_of_decided (hc : Logging.Harmless (verifyOwn w p).process.context)
    {verdict : Option Value}
    (hverdict : (verdictOf verifyOwn w p).answer = .ok verdict) :
    let ended := (verdictOf verifyOwn >>= conclude) w p
    ended.answer = .ok (if verdict.isSome then 1 else 0) ∧
      loggedEvents ended.effects =
        loggedEvents (verifyOwn w p).effects ++ [verdictEvent verdict] := by
  rw [Action.bind_of_ok hverdict, verdictOf_process, verdictOf_effects]
  refine ⟨conclude_answer (Process.obstacle_of_harmless hc _) verdict, ?_⟩
  rw [loggedEvents_append, conclude_effects, Action.loggedEvents_log]

/-- The check before and after logging is configured comes to the same and logs the same. -/
theorem verifyOwn_of_configured (hc : Logging.Harmless p.context) (setup : Logging.Setup) :
    let configured := verifyOwn w { p with logging := some setup }
    configured.answer = (verifyOwn w p).answer ∧
      loggedEvents configured.effects = loggedEvents (verifyOwn w p).effects := by
  have hsupports := Simulation.unlogged_supports (.refl w)
  have hload := Simulation.unlogged_relates_load (.refl w)
  have hrelates : (Simulation.unlogged w w).Relates verifyOwn verifyOwn :=
    hsupports.verify (.str grammarName) (hsupports.languageFrom hload) hsupports.engageWorld
  obtain ⟨hanswer, -, heffects⟩ :=
    hrelates { p with logging := some setup } p ⟨rfl, rfl, hc⟩
  exact ⟨hanswer, loggedEvents_of_unwritten heffects⟩

/-- The smoke check comes to the status of the verdict from the state that it starts in. -/
theorem run_of_verdict (hv : w.settings.Valid) (ha : w.FailsOnly p Fault.IsReportable)
    (hc : Logging.Harmless p.context) {verdict : Option Value}
    (hverdict : (verdictOf verifyOwn w p).answer = .ok verdict) :
    (run w p).answer = .ok (if verdict.isSome then 1 else 0) ∧
      loggedEvents (run w p).effects =
        loggedEvents (verifyOwn w p).effects ++ [verdictEvent verdict] := by
  obtain ⟨level, format, hlogs⟩ := hv.logsAt
  obtain ⟨setup, hsetup⟩ := Logging.Setup.make_of_logsAt hlogs
  obtain ⟨hanswer, hlogged⟩ := verifyOwn_of_configured (w := w) hc setup
  -- the verdict is reached after logging is configured, and is that from before
  have hconfigured : (verdictOf verifyOwn w { p with logging := some setup }).answer =
      .ok verdict := by
    rw [verdictOf_answer] at hverdict ⊢
    rw [hanswer, hverdict]
  obtain ⟨-, hcontext⟩ :=
    verifyOwn_decided (p := { p with logging := some setup }) hv ⟨ha.1, ha.2, ha.3, ha.4, ha.5⟩ hc
  rw [run_apply, hsetup, ← hlogged]
  exact concluded_of_decided hcontext hconfigured

/-- With valid settings around, foreign code that fails only with what a check can report, and
nothing in the context that keeps a line from being written: the smoke check comes to a status,
whatever library is loaded. It is zero exactly if a check by itself would pass, and one exactly if
it would be rejected; the events are those of that check and one more that tells the status. -/
theorem status_of_check (w : World) {p : Process} (hc : Logging.Harmless p.context)
    (hv : w.settings.Valid) (ha : w.FailsOnly p Fault.IsReportable) :
    let checked := verifyOwn w p
    let ended := run w p
    (ended.answer = .ok 0 ∨ ended.answer = .ok 1) ∧
    (ended.answer = .ok 0 ↔ ∃ language, checked.answer = .ok language) ∧
    (ended.answer = .ok 1 ↔
      ∃ f, checked.answer = .error f ∧ f.failure = .grammarRejected (.str "KPL")) ∧
    (ended.answer = .ok 0 →
      loggedEvents ended.effects = loggedEvents checked.effects ++ [passedEvent]) ∧
    (ended.answer = .ok 1 → ∃ before reason,
      loggedEvents checked.effects = before ++ [Check.failedEvent (.str "KPL") reason] ∧
      loggedEvents ended.effects = before ++
        [Check.failedEvent (.str "KPL") reason, failedEvent "Error loading KPL grammar"]) := by
  intro checked ended
  have hverdict := verdictOf_answer verifyOwn w p
  obtain ⟨hdecided, -⟩ := verifyOwn_decided hv ha hc
  cases hdecided with
  | @passed language hl =>
    rw [hl] at hverdict
    obtain ⟨hzero, hevents⟩ : ended.answer = .ok 0 ∧ _ := run_of_verdict hv ha hc hverdict
    have hone : ended.answer ≠ .ok 1 := by
      intro h
      rw [hzero] at h
      cases h
    refine ⟨.inl hzero, iff_of_true hzero ⟨language, hl⟩, iff_of_false hone ?_,
      fun _ => hevents, fun h => absurd h hone⟩
    rintro ⟨f, hf, -⟩
    rw [hl] at hf
    cases hf
  | @rejected f before reason hf hl hrejected =>
    rw [hl] at hverdict
    simp only [hf, rejectedName?] at hverdict
    obtain ⟨hone, hevents⟩ : ended.answer = .ok 1 ∧ _ := run_of_verdict hv ha hc hverdict
    have hzero : ended.answer ≠ .ok 0 := by
      intro h
      rw [hone] at h
      cases h
    have hevent : verdictEvent (some (.str grammarName)) =
        failedEvent "Error loading KPL grammar" := rfl
    refine ⟨.inr hone, iff_of_false hzero ?_, iff_of_true hone ⟨f, hl, hf⟩,
      fun h => absurd h hzero, fun _ => ⟨before, reason, hrejected, ?_⟩⟩
    · rintro ⟨language, hlanguage⟩
      rw [hl] at hlanguage
      cases hlanguage
    · rw [hevents, hrejected, hevent, List.append_assoc]
      rfl

/-- A home that nobody has: the search breaks off, and the smoke check comes to one. -/
theorem status_of_check_unknownHome :
    let w : World :=
      { World.naming (.exporting [Loader.symbolName]) with
        settings :=
          { library := .str "~nobody/kpl.so", logFormat := .str "json",
            explicit := [.library, .logFormat] } }
    Logging.Harmless ({} : Process).context ∧ w.settings.Valid ∧
      w.FailsOnly {} Fault.IsReportable ∧
      (Search.locate w {}).answer = .error ↑(Failure.path .unknownHome) ∧
      (run w {}).answer = .ok 1 := by
  intro w
  have hv : w.settings.Valid := by
    have hsources : Settings.ofSources
        ⟨[("TREE_SITTER_KPL_LIBRARY", .str "~nobody/kpl.so"), ("LOG_FORMAT", .str "json")], [],
          none⟩ = .ok w.settings := rfl
    exact Settings.valid_of_ofSources hsources
  have ha : w.FailsOnly {} Fault.IsReportable :=
    World.failsOnly_of_single rfl rfl rfl nofun
      (fun f hf => absurd hf World.not_comesFrom_exporting) ⟨rfl, _, rfl⟩
  have hbreaks : Search.BreaksOff w .unknownHome := .named rfl (by decide) (by decide +kernel)
  refine ⟨.nil, hv, ha, hbreaks.locate_answer {}, ?_⟩
  obtain ⟨hstatus, hpasses, -⟩ := status_of_check w (p := {}) .nil hv ha
  refine hstatus.resolve_left fun hzero => ?_
  obtain ⟨language, hl⟩ := hpasses.mp hzero
  have hfails : (verifyOwn w {}).answer.toBool = false := by decide +kernel
  rw [hl] at hfails
  cases hfails

/-- There is no status where the text of a parser's fault cannot be made, nor where something that
is no text is bound for the stack of a line. The settings are valid, and all foreign code fails only
with faults that code may answer. -/
theorem status_of_check_escapes :
    let reason : Failure := .foreign .badValue [.str "no text"]
    let fault : Fault := ↑(Failure.silent .runtime [] reason [])
    let w := World.naming { Library.exporting [Loader.symbolName] with call := .error fault }
    let v : World := { World.naming (.exporting []) with settings := {}, files := {} }
    let p : Process := { context := [("stack", .int (.mk 5))] }
    let ends (ended : Outcome Nat) := ended.answer.mapError fun f => f.text.toOption
    w.settings.Valid ∧ w.FailsOnly {} (fun f => f.failure.isOrdinary) ∧
      ends (run w {}) = .error (some "no text") ∧
    v.settings.Valid ∧ v.FailsOnly p (fun f => f.failure.isOrdinary) ∧
      ends (run v p) = .error (some "can only concatenate str (not \"int\") to str") := by
  intro reason fault w v p ends
  have hsilent (f : Fault) (hf : f.ComesFrom (.error fault)) : f.failure.isOrdinary := by
    obtain hf | ⟨o, ho, -⟩ := hf
    · cases hf
      rfl
    · cases ho
  have hv : w.settings.Valid := by
    intro f
    cases f <;> rfl
  refine ⟨hv, World.failsOnly_of_single rfl rfl rfl nofun hsilent rfl, by decide +kernel,
    Settings.valid_default, World.failsOnly_of_single rfl rfl rfl nofun ?_ rfl, by decide +kernel⟩
  exact fun f hf => absurd hf World.not_comesFrom_exporting

end Smoke

end GrammarLoader
