import GrammarLoader.Proofs.Loader.Memory
import GrammarLoader.Proofs.Logging.Written
import GrammarLoader.Proofs.Settings.Valid

/-!
# The logging configuration in force

Logging is configured by the last call that succeeds, whether the caller makes it or the smoke
check, and by nothing else. A call succeeds if the upper case of its level is the name of a
threshold; an argument that is left out or empty is taken from the settings, and with valid settings
those succeed. A call that fails changes nothing.
-/

namespace GrammarLoader

namespace Logging

/-- An argument that may be left out. -/
def argument (text : Option String) : Value := (text.map .str).getD .null

/-- The text that is meant by an argument, or by the settings if it is left out or empty. -/
def given (argument : Option String) (setting : String) : String :=
  (argument.filter (· != "")).getD setting

theorem threshold?_isSome_iff (name : String) : (threshold? name).isSome ↔
    name ∈ ["CRITICAL", "FATAL", "ERROR", "WARNING", "WARN", "INFO", "DEBUG", "NOTSET"] := by
  show (thresholds.lookup name).isSome ↔ name ∈ thresholds.map Prod.fst
  induction thresholds with
  | nil => simp
  | cons entry rest ih =>
    rw [List.lookup_cons, List.map_cons, List.mem_cons, ← ih]
    cases hn : name == entry.1 with
    | true => simp [beq_iff_eq.mp hn]
    | false => simp [beq_eq_false_iff_ne.mp hn]

/-- The levels that settings may have are thresholds. -/
theorem threshold?_of_mem_levelNames :
    ∀ level ∈ Settings.levelNames, (threshold? (Text.upper level)).isSome := by
  decide +kernel

namespace Setup

theorem orElse_argument (text : Option String) (setting : String) :
    orElse (argument text) (.str setting) = .str (given text setting) := by
  cases text with
  | none => rfl
  | some s =>
    by_cases hs : s = "" <;>
      simp [orElse, argument, given, Value.isTrue, Option.filter_some, hs]

theorem styleOf_str (format : String) :
    styleOf (.str format) = if format = "json" then .json else .console := by
  unfold styleOf
  split
  · rename_i h
    simp [Value.str.inj h]
  · rename_i h
    rw [if_neg fun hf => h (by rw [hf])]

/-- The style is that of the format, if there is one. -/
theorem style_of_make {s : Settings} {level format : Value} {setup : Setup}
    (h : make s level format = .ok setup) (hf : format.isTrue) : setup.style = styleOf format := by
  unfold make at h
  split at h
  · split at h
    · cases h
      rw [orElse, if_pos hf]
    · cases h
  · cases h

variable {s : Settings} {levelSetting formatSetting : String}

theorem make_argument (hs : s.LogsAt levelSetting formatSetting) (level format : Option String) :
    make s (argument level) (argument format) =
      match threshold? (Text.upper (given level levelSetting)) with
      | some threshold =>
        .ok ⟨threshold, if given format formatSetting = "json" then .json else .console⟩
      | none => .error (.unknownLevel (Text.upper (given level levelSetting))) := by
  unfold make
  rw [hs.logLevel, hs.logFormat, orElse_argument, orElse_argument]
  dsimp only
  cases threshold? (Text.upper (given level levelSetting)) with
  | some n => exact congrArg (fun style => Except.ok (Setup.mk n style)) (styleOf_str _)
  | none => rfl

/-- Valid settings make a setup. -/
theorem make_of_logsAt (hs : s.LogsAt levelSetting formatSetting) :
    ∃ setup, make s .null .null = .ok setup := by
  have hmake := make_argument hs none none
  obtain ⟨n, hn⟩ := Option.isSome_iff_exists.mp (threshold?_of_mem_levelNames _ hs.level_mem)
  rw [show given none levelSetting = levelSetting from rfl, hn] at hmake
  exact ⟨_, hmake⟩

end Setup

end Logging

namespace Session

open Logging

/-- The setup that a step puts in force. -/
def configured (s : Session) : Step → List Setup
  | .operation o => (o.setup? s.world.settings).toList
  | .change _ => []

variable {s : Session}

theorem handled_step {st : Step} (ho : st.isOwn) (hc : s.process.context = []) :
    (s.step st).1.process.logging = (s.configured st).getLast?.or s.process.logging ∧
      Handled s.world.now (s.effects st) (s.step st).1.process.logging := by
  cases st with
  | change c =>
    rw [step_change_process, effects_change]
    exact ⟨rfl, handled_of_not_isLogging (by simp)⟩
  | operation o =>
    obtain ⟨hlogging, hhandled⟩ := Operation.handled_run (w := s.world) ho hc
    have hlast : (s.configured (.operation o)).getLast? = o.setup? s.world.settings := by
      show (o.setup? s.world.settings).toList.getLast? = _
      cases o.setup? s.world.settings <;> rfl
    rw [step_operation_process, effects_operation, hlast, hlogging]
    exact ⟨rfl, hhandled⟩

/-- What is in force after a run was put in force last, or before the run. -/
theorem logging_after {steps : List Step} (ho : ∀ st ∈ steps, st.isOwn)
    (hc : s.process.context = []) :
    (s.after steps).process.logging =
      (s.trace configured steps).getLast?.or s.process.logging := by
  induction steps generalizing s with
  | nil => rfl
  | cons st rest ih =>
    obtain ⟨hst, hrest⟩ := List.forall_mem_cons.mp ho
    -- the last setup of the rest wins over that of the first step, and both over what was before
    rw [after_cons, ih hrest (context_step hst hc), (handled_step hst hc).1, trace,
      List.getLast?_append, Option.or_assoc]

theorem step_configureLogging (s : Session) (level format : Value) :
    s.step (.operation (.configureLogging level format)) =
      match Setup.make s.world.settings level format with
      | .ok setup => (⟨s.world, { s.process with logging := some setup }⟩,
        ⟨.ok .nothing, [], s.process.loaded.isSome⟩)
      | .error f => (s, ⟨.error ↑f, [], s.process.loaded.isSome⟩) := by
  rw [step, Operation.configureLogging_run]
  cases Setup.make s.world.settings level format <;> rfl

/-- A call that succeeds puts a setup in force and does nothing else. -/
theorem step_of_configured {s : Session} {level format : Value}
    (h : (s.step (.operation (.configureLogging level format))).2.answer = .ok .nothing) :
    ∃ setup, Setup.make s.world.settings level format = .ok setup ∧
      s.step (.operation (.configureLogging level format)) =
        (⟨s.world, { s.process with logging := some setup }⟩,
          ⟨.ok .nothing, [], s.process.loaded.isSome⟩) := by
  have hstep := step_configureLogging s level format
  cases hm : Setup.make s.world.settings level format with
  | ok setup =>
    rw [hm] at hstep
    exact ⟨setup, rfl, hstep⟩
  | error f =>
    rw [hm] at hstep
    rw [hstep] at h
    cases h

/-- Whatever the binding has done, the configuration in force is that of the last call that has
succeeded, and every event is handled by it. A call with valid settings around succeeds exactly if
the upper case of its level names a threshold, and one that does not leaves everything as it was; no
operation but those calls and the smoke check changes the configuration. -/
theorem last_configuration_in_force (w : World) (before : List Step)
    (ho : ∀ st ∈ before, st.isOwn) :
    let s := (start w).after before
    s.process.logging = ((start w).trace configured before).getLast? ∧
    (∀ st : Step, st.isOwn →
      Handled s.world.now (s.effects st) (s.step st).1.process.logging) ∧
    (∀ o : Operation, o.isOwn → o.configures = false →
      (s.step (.operation o)).1.process.logging = s.process.logging) ∧
    ∀ levelSetting formatSetting, s.world.settings.LogsAt levelSetting formatSetting →
      ∀ level format : Option String,
      let name := Text.upper (given level levelSetting)
      (s.step (.operation (.configureLogging (argument level) (argument format))) =
        match threshold? name with
        | some threshold =>
          let style := if given format formatSetting = "json" then Style.json else .console
          (⟨s.world, { s.process with logging := some ⟨threshold, style⟩ }⟩,
            ⟨.ok .nothing, [], s.process.loaded.isSome⟩)
        | none => (s, ⟨.error ↑(Failure.unknownLevel name), [], s.process.loaded.isSome⟩)) ∧
      ((threshold? name).isSome ↔ name ∈
        ["CRITICAL", "FATAL", "ERROR", "WARNING", "WARN", "INFO", "DEBUG", "NOTSET"]) ∧
      (level = none ∨ level = some "" → (threshold? name).isSome) := by
  intro s
  have hc : s.process.context = [] := context_after ho rfl
  refine ⟨?_, fun st hst => (handled_step hst hc).2, ?_, ?_⟩
  · rw [logging_after ho rfl]
    exact Option.or_none
  · intro o hown hconf
    exact (Operation.handled_of_not_configures hown hconf hc).1
  · intro levelSetting formatSetting hs level format name
    refine ⟨?_, threshold?_isSome_iff name, ?_⟩
    · rw [step_configureLogging, Setup.make_argument hs]
      cases threshold? name <;> rfl
    · rintro (rfl | rfl) <;> exact threshold?_of_mem_levelNames _ hs.level_mem

/-- A threshold put in force stays so through a call for an unknown level and through a load, whose
event it keeps from being written; an error is written. -/
theorem last_configuration_in_force_warning :
    let w := World.naming (.exporting [Loader.symbolName])
    let before : List Step := [.operation (.configureLogging (.str "Warn") (.str "json")),
      .operation (.configureLogging (.str "verbose") .null), .operation .language]
    let s := (start w).after before
    let failing : Step := .operation (.configureLogging (.str "verbose") .null)
    let checking : Step := .operation (.verify (.str "KPL") (some (.ok .null)) none)
    (∀ st ∈ before, st.isOwn) ∧ s.process.logging = some ⟨30, .json⟩ ∧
      s.step failing =
        (s, ⟨.error ↑(Failure.unknownLevel "VERBOSE"), [], s.process.loaded.isSome⟩) ∧
      (writtenLines (s.effects checking)).map .ok =
        Setup.lines ⟨30, .json⟩ w.now (loggedEvents (s.effects checking)) ∧
      (loggedEvents (s.effects checking)).map Event.level = [.error] ∧
      (writtenLines (s.effects checking)).length = 1 := by
  intro w before s failing checking
  have ho : ∀ st ∈ before, st.isOwn := by decide
  obtain ⟨hlogging, hhandled, hkeeps, hcall⟩ := last_configuration_in_force w before ho
  have hlast : s.process.logging = some ⟨30, .json⟩ := hlogging.trans (by decide +kernel)
  refine ⟨ho, hlast, ?_, ?_⟩
  · have hupper : Text.upper (given (some "verbose") "INFO") = "VERBOSE" := by decide +kernel
    have hfails := (hcall "INFO" "console" ⟨rfl, rfl, by decide, by decide⟩ (some "verbose") none).1
    rw [hupper] at hfails
    exact hfails
  · have hkept := hkeeps (.verify (.str "KPL") (some (.ok .null)) none) rfl rfl
    have hwritten := hhandled checking (by decide)
    rw [hkept, hlast] at hwritten
    cases hwritten with
    | written hk hw => exact ⟨hw, by decide +kernel, by decide +kernel⟩

end Session

end GrammarLoader
