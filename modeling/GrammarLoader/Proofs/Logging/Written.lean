import GrammarLoader.Proofs.Contract

/-!
# What becomes of events

As long as logging is not configured every event is kept and none is written. From then on none is
kept, and of the events exactly those that reach the threshold are written, each as one line in the
style of the setup. That is what the binding's operations do with the events they log, in whatever
order they do it with the rest of their work.
-/

namespace GrammarLoader

namespace Effect

/-- The event that is kept. -/
def keptEvent? : Effect → Option Logging.Event
  | kept event => some event
  | _ => none

/-- The line that is written. -/
def writtenLine? : Effect → Option String
  | wrote line => some line
  | _ => none

/-- Something that is done about an event. -/
def isLogging : Effect → Bool
  | logged _ | kept _ | wrote _ => true
  | _ => false

end Effect

/-- The events kept. -/
def keptEvents (effects : List Effect) : List Logging.Event := effects.filterMap Effect.keptEvent?

/-- The lines written. -/
def writtenLines (effects : List Effect) : List String := effects.filterMap Effect.writtenLine?

section Views

variable (first second : List Effect)

@[simp] theorem keptEvents_append :
    keptEvents (first ++ second) = keptEvents first ++ keptEvents second :=
  List.filterMap_append

@[simp] theorem writtenLines_append :
    writtenLines (first ++ second) = writtenLines first ++ writtenLines second :=
  List.filterMap_append

end Views

theorem Action.isLogging_of_mem_log {event : Logging.Event} {w : World} {p : Process} {e : Effect}
    (h : e ∈ (log event w p).effects) : e.isLogging := by
  obtain hl | hl | ⟨line, hl⟩ := log_effects event w p <;> rw [hl] at h <;>
    simp only [List.mem_cons, List.not_mem_nil, or_false] at h
  · rw [h]
    rfl
  · obtain rfl | rfl := h <;> rfl
  · obtain rfl | rfl := h <;> rfl

namespace Logging

/-- The lines of those events that reach the threshold, with nothing in the context. -/
def Setup.lines (setup : Setup) (now : Moment) (events : List Event) :
    List (Except Failure String) :=
  (events.filter fun e => setup.threshold ≤ e.level.number).map fun e =>
    setup.style.line (e.record [] now)

theorem Setup.lines_append (setup : Setup) (now : Moment) (first second : List Event) :
    setup.lines now (first ++ second) = setup.lines now first ++ setup.lines now second := by
  rw [lines, List.filter_append, List.map_append, ← lines, ← lines]

/-- The events among effects are handled as the setup in force asks for, if there is one. -/
inductive Handled (now : Moment) (effects : List Effect) : Option Setup → Prop
  | kept (hk : keptEvents effects = loggedEvents effects) (hw : writtenLines effects = []) :
    Handled now effects none
  | written {setup : Setup} (hk : keptEvents effects = [])
    (hw : (writtenLines effects).map .ok = setup.lines now (loggedEvents effects)) :
    Handled now effects (some setup)

variable {now : Moment} {setup? : Option Setup}

/-- Where nothing is done about events none is missed. -/
theorem handled_of_not_isLogging {effects : List Effect} (h : ∀ e ∈ effects, e.isLogging = false) :
    Handled now effects setup? := by
  have hnone : keptEvents effects = [] ∧ writtenLines effects = [] ∧ loggedEvents effects = [] := by
    refine ⟨?_, ?_, ?_⟩ <;> refine List.filterMap_eq_nil_iff.mpr fun e he => ?_ <;>
      have hquiet := h e he <;> cases e <;> first | rfl | cases hquiet
  obtain ⟨hkept, hwritten, hlogged⟩ := hnone
  cases setup? with
  | none => exact .kept (hkept.trans hlogged.symm) hwritten
  | some setup => exact .written hkept (by rw [hwritten, hlogged]; rfl)

theorem Handled.append {first second : List Effect} (h : Handled now first setup?)
    (h' : Handled now second setup?) : Handled now (first ++ second) setup? := by
  cases h with
  | kept hk hw =>
    obtain ⟨hk', hw'⟩ := h'
    exact .kept (by simp [hk, hk']) (by simp [hw, hw'])
  | written hk hw =>
    cases h' with
    | written hk' hw' => exact .written (by simp [hk, hk']) (by simp [hw, hw', Setup.lines_append])

/-- With nothing in the context the line of a plain event never fails. -/
theorem log_effects_of_reached {w : World} {p : Process} {e : Event} {setup : Setup}
    (he : e.IsPlain) (hc : p.context = []) (hl : p.logging = some setup)
    (hreach : setup.threshold ≤ e.level.number) :
    ∃ line, setup.style.line (e.record [] w.now) = .ok line ∧
      (Action.log e w p).effects = [.logged e, .wrote line] := by
  have hanswer := Action.log_answer w p he
  rw [p.obstacle_of_context_nil hc] at hanswer
  unfold Action.log at hanswer ⊢
  rw [hl, hc] at hanswer ⊢
  simp only [if_neg (Nat.not_lt.mpr hreach)] at hanswer ⊢
  split at hanswer
  · rename_i line hline
    exact ⟨line, hline, rfl⟩
  · cases hanswer

/-- A plain event is handled, there being nothing in the context. -/
theorem handled_log {w : World} {p : Process} {e : Event} (he : e.IsPlain) (hc : p.context = []) :
    Handled w.now (Action.log e w p).effects p.logging := by
  cases hl : p.logging with
  | none =>
    have heffects : (Action.log e w p).effects = [.logged e, .kept e] := by
      rw [Action.log, hl]
    rw [heffects]
    exact .kept rfl rfl
  | some setup =>
    by_cases hreach : setup.threshold ≤ e.level.number
    · obtain ⟨line, hline, heffects⟩ := log_effects_of_reached he hc hl hreach
      rw [heffects]
      refine .written rfl ?_
      show [Except.ok line] = setup.lines w.now [e]
      simp [Setup.lines, hreach, hline]
    · have heffects : (Action.log e w p).effects = [.logged e] := by
        rw [Action.log, hl]
        simp [Nat.not_le.mp hreach]
      rw [heffects]
      refine .written rfl ?_
      show [] = setup.lines w.now [e]
      simp [Setup.lines, hreach]

end Logging

namespace Contract

open Logging

/-- Leaves logging as it is configured and the context empty, and handles the events that way. -/
def logsBy (w : World) (setup? : Option Setup) : Contract where
  keeps p := p.logging = setup? ∧ p.context = []
  does effects := Handled w.now effects setup?
  fails _ := True
  does_nil := handled_of_not_isLogging (by simp)
  does_append := Handled.append

variable {w : World} {setup? : Option Setup}

theorem logsBy_log {e : Event} (he : e.IsPlain) :
    (logsBy w setup?).Binds w (fun _ => True) (Action.log e) := by
  intro p hp
  refine ⟨by rwa [Action.log_process], ?_, fun _ _ => trivial, fun _ _ => trivial⟩
  have hhandled := handled_log (w := w) he hp.2
  rwa [hp.1] at hhandled

theorem logsBy_serves : (logsBy w setup?).Serves w (fun _ => True) where
  texts _ := trivial
  calls symbol := handled_of_not_isLogging (by simp [Effect.isLogging])
  engages descriptor := handled_of_not_isLogging (by simp [Effect.isLogging])
  logs e he _ := logsBy_log he.isPlain
  wraps := ⟨trivial, trivial⟩
  silences _ _ _ _ := trivial
  rejects _ _ _ := trivial
  empties _ := trivial

theorem logsBy_locate : (logsBy w setup?).Binds w (fun _ => True) Search.locate := by
  refine binds_locate (fun effects h => ?_) (fun _ _ _ => trivial) fun _ _ _ => trivial
  refine handled_of_not_isLogging fun e he => ?_
  have hsearch := h e he
  cases e with
  | checked | searched => rfl
  | opened | called | engaged | logged | kept | wrote => cases hsearch

theorem logsBy_load : (logsBy w setup?).Binds w (logsBy w setup?).Trusts Loader.load := by
  have hloads : (logsBy w setup?).Loads w (fun _ => True) (logsBy w setup?).Trusts :=
    { opens := fun _ _ => handled_of_not_isLogging (by simp [Effect.isLogging])
      refuses := fun _ _ _ => trivial
      lacks := fun _ _ _ _ _ => trivial
      announces := fun path => logsBy_log (Loader.loadedEvent_isPlain path)
      remembers := fun _ _ hp _ _ => hp
      remembered := fun _ _ _ _ _ _ => trivial }
  exact hloads.load logsBy_locate

end Contract

namespace Operation

open Logging Contract

variable {w : World} {p : Process}

/-- The setup that an operation puts in force. -/
def setup? (settings : Settings) : Operation → Option Setup
  | configureLogging level format => (Setup.make settings level format).toOption
  | smoke | smokeProcess => (Setup.make settings .null .null).toOption
  | _ => none

theorem setup?_of_not_configures {o : Operation} (ho : o.configures = false) (s : Settings) :
    o.setup? s = none := by
  cases o with
  | configureLogging | smoke | smokeProcess => cases ho
  | _ => rfl

/-- An operation that does not configure logging leaves it as it is. -/
theorem handled_of_not_configures {o : Operation} (ho : o.isOwn) (hconf : o.configures = false)
    (hc : p.context = []) : (o.run w p).process.logging = p.logging ∧
      Handled w.now (o.run w p).effects p.logging := by
  have hbinds : (logsBy w p.logging).Binds w (fun _ => True) o.run := by
    refine logsBy_serves.own ho (q := p) (fun _ => trivial) (fun _ _ => trivial) logsBy_load
      logsBy_locate (fun _ _ => trivial) (fun _ hq => hq) (fun _ hq => ⟨hq.1, rfl⟩) fun h => ?_
    rw [hconf] at h
    cases h
  obtain ⟨hprocess, heffects, -⟩ := hbinds p ⟨rfl, hc⟩
  exact ⟨hprocess.1, heffects⟩

/-- The smoke check writes its events by the setup that it makes of the settings. -/
theorem handled_smoke (hc : p.context = []) :
    (Smoke.run w p).process.logging = ((smoke.setup? w.settings).or p.logging) ∧
      Handled w.now (Smoke.run w p).effects ((smoke.setup? w.settings).or p.logging) := by
  rw [Smoke.run_apply, setup?]
  cases hm : Setup.make w.settings .null .null with
  | error f => exact ⟨rfl, handled_of_not_isLogging (by simp)⟩
  | ok setup =>
    -- from here on the setup is fixed, so what follows is under the contract for it
    have hload : (logsBy w (some setup)).Binds w (logsBy w (some setup)).Trusts Loader.load :=
      logsBy_load
    have hbinds := logsBy_serves.smokeChecked hload fun _ _ _ => trivial
    obtain ⟨hprocess, heffects, -⟩ := hbinds { p with logging := some setup } ⟨rfl, hc⟩
    exact ⟨hprocess.1, heffects⟩

/-- An operation of the binding puts its setup in force, if it has one, and handles its events by
what is in force then. -/
theorem handled_run {o : Operation} (ho : o.isOwn) (hc : p.context = []) :
    (o.run w p).process.logging = (o.setup? w.settings).or p.logging ∧
      Handled w.now (o.run w p).effects ((o.setup? w.settings).or p.logging) := by
  cases hconf : o.configures with
  | false =>
    rw [setup?_of_not_configures hconf, Option.none_or]
    exact handled_of_not_configures ho hconf hc
  | true =>
    cases o with
    | smokeProcess => exact handled_smoke hc
    | smoke =>
      rw [smoke_run]
      exact handled_smoke hc
    | configureLogging level format =>
      rw [configureLogging_run, setup?]
      cases Setup.make w.settings level format <;>
        exact ⟨rfl, handled_of_not_isLogging (by simp)⟩
    | _ => cases hconf

end Operation

end GrammarLoader
