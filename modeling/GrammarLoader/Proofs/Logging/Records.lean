import GrammarLoader.Proofs.Json.RoundTrip
import GrammarLoader.Proofs.Logging.Configuration
import GrammarLoader.Proofs.Path.Text

/-!
# Records in a log of JSON lines

While logging is in the JSON style, each event that reaches the threshold leaves one line, and the
line is read back as an object with the fields of the event, what it is, its level and the time. A
line holds no line end but its own, whatever a path, an error or the name of a grammar says, so a
whole log falls into its lines again and gives the events back in their order.
-/

namespace GrammarLoader

namespace Logging

namespace Event

/-- Events of the binding: a library is loaded, or it reports on a grammar. -/
inductive IsNotice : Event → Prop
  | loaded (path : String) : IsNotice (Loader.loadedEvent path)
  | report {e : Event} (h : e.IsReport) : IsNotice e

/-- The fields of an event in the log: its own, what it is, its level and the time. -/
def fields (now : Moment) (e : Event) : Entries :=
  e.entries ++ [("event", e.subject), ("level", .str e.level.name), ("timestamp", .str now.text)]

/-- The values of the event's own fields can be held in a JSON text. -/
def HoldsJson (e : Event) : Prop := ∀ entry ∈ e.entries, entry.2.IsJson

namespace IsNotice

variable {e : Event}

/-- With nothing in the context the fields are the entries of the line. -/
theorem record_eq_fields (h : e.IsNotice) (now : Moment) : e.record [] now = e.fields now := by
  cases h with
  | loaded path => rfl
  | report h => cases h <;> rfl

/-- An event's own fields have names that the line has no other use for. -/
theorem nodup_fields (h : e.IsNotice) (now : Moment) :
    ((e.fields now).map Prod.fst).Nodup := by
  have hpath : ["path", "event", "level", "timestamp"].Nodup := by decide
  have hgrammar : ["grammar", "event", "level", "timestamp"].Nodup := by decide
  have herror : ["error", "event", "level", "timestamp"].Nodup := by decide
  have hboth : ["grammar", "error", "event", "level", "timestamp"].Nodup := by decide
  cases h with
  | loaded path => exact hpath
  | report h =>
    cases h with
    | noGrammar path => exact hpath
    | rejected name reason => exact hboth
    | passed => exact hgrammar
    | failed reason => exact herror

theorem isJson_fields (h : e.IsNotice) (he : e.HoldsJson) (now : Moment) :
    (Value.object (e.fields now)).IsJson := by
  have hsubject : e.subject.IsJson := by
    cases h with
    | loaded path => exact .str _
    | report h => cases h <;> exact .str _
  refine .object (h.nodup_fields now) ?_
  simp only [fields, List.forall_mem_append, List.forall_mem_cons]
  exact ⟨he, hsubject, .str _, .str _, nofun⟩

end IsNotice

/-- The text of an event's record in the JSON style. -/
def jsonText (now : Moment) (e : Event) : String := Json.write (.object (e.fields now))

/-- The text is read back as the fields and stands on one line. -/
theorem IsNotice.read_jsonText {e : Event} (h : e.IsNotice) (he : e.HoldsJson) (now : Moment) :
    Json.read (e.jsonText now) = some (.object (e.fields now)) ∧
      '\n' ∉ (e.jsonText now).toList := by
  have hjson := h.isJson_fields he now
  refine ⟨Json.read_write hjson, fun hmem => ?_⟩
  rw [jsonText, Json.write, String.toList_ofList] at hmem
  exact absurd (Json.isShown_of_mem_text hjson _ hmem) (by decide)

end Event

/-- In the JSON style the lines of the binding's events are the texts of their records. -/
theorem Setup.lines_json {threshold : Nat} (now : Moment) {events : List Event}
    (h : ∀ e ∈ events, e.IsNotice) :
    lines ⟨threshold, .json⟩ now events =
      (events.filter fun e => threshold ≤ e.level.number).map fun e =>
        .ok (e.jsonText now ++ "\n") := by
  refine List.map_congr_left fun e he => ?_
  rw [(h e (List.mem_of_mem_filter he)).record_eq_fields]
  rfl

section Reading

/-! ## Reading a log -/

/-- The values in a log with one JSON text on each line; none if a line holds none, or the last line
does not end. -/
def readLines (log : String) : Option (List Value) :=
  let pieces := splitAt '\n' log.toList
  if pieces.getLast? = some [] then pieces.dropLast.mapM Json.parse else none

/-- A log falls into the texts that it was put together from. -/
theorem splitAt_join {texts : List String} (h : ∀ text ∈ texts, '\n' ∉ text.toList) :
    splitAt '\n' (String.join (texts.map (· ++ "\n"))).toList =
      texts.map String.toList ++ [[]] := by
  induction texts with
  | nil => rfl
  | cons text rest ih =>
    obtain ⟨htext, hrest⟩ := List.forall_mem_cons.mp h
    rw [List.map_cons, String.join_cons, String.toList_append, String.toList_append,
      List.append_assoc]
    exact (splitAt_append htext _).trans (congrArg _ (ih hrest))

theorem readLines_join {now : Moment} {events : List Event}
    (h : ∀ e ∈ events, e.IsNotice ∧ e.HoldsJson) :
    readLines (String.join (events.map fun e => e.jsonText now ++ "\n")) =
      some (events.map fun e => .object (e.fields now)) := by
  have hlines : ∀ text ∈ events.map (Event.jsonText now), '\n' ∉ text.toList :=
    List.forall_mem_map.mpr fun e he => ((h e he).1.read_jsonText (h e he).2 now).2
  have hpieces := splitAt_join hlines
  have hread : (events.map fun e => (e.jsonText now).toList).mapM Json.parse =
      some (events.map fun e => .object (e.fields now)) := by
    clear hpieces hlines
    induction events with
    | nil => rfl
    | cons e rest ih =>
      obtain ⟨he, hrest⟩ := List.forall_mem_cons.mp h
      have hparse : Json.parse (e.jsonText now).toList = some (.object (e.fields now)) :=
        (he.1.read_jsonText he.2 now).1
      simp [hparse, ih hrest]
  simp only [List.map_map, Function.comp_def] at hpieces
  simp only [readLines]
  rw [hpieces, List.getLast?_concat, List.dropLast_concat, if_pos rfl]
  exact hread

end Reading

end Logging

namespace Contract

open Logging

/-- Logs events of the binding only, whose fields can be held in a JSON text. -/
def noticesJson : Contract where
  keeps _ := True
  does effects := ∀ e ∈ loggedEvents effects, e.IsNotice ∧ e.HoldsJson
  fails _ := True
  does_nil := nofun
  does_append := by
    intro first second hfirst hsecond
    rw [loggedEvents_append]
    exact List.forall_mem_append.mpr ⟨hfirst, hsecond⟩

variable {w : World}

theorem noticesJson_log {e : Event} (h : e.IsNotice) (he : e.HoldsJson) :
    noticesJson.Binds w (fun _ => True) (Action.log e) := by
  refine fun p _ => ⟨trivial, ?_, fun _ _ => trivial, fun _ _ => trivial⟩
  intro e' hmem
  rw [Action.loggedEvents_log, List.mem_singleton] at hmem
  rw [hmem]
  exact ⟨h, he⟩

theorem noticesJson_serves : noticesJson.Serves w Value.IsJson where
  texts := .str
  calls _ := nofun
  engages _ := nofun
  logs _ h he := noticesJson_log (.report h) he
  wraps := ⟨trivial, trivial⟩
  silences _ _ _ _ := trivial
  rejects _ _ _ := trivial
  empties _ := trivial

theorem noticesJson_locate : noticesJson.Binds w (fun _ => True) Search.locate := by
  refine binds_locate (fun effects h => ?_) (fun _ _ _ => trivial) fun _ _ _ => trivial
  have hnone : loggedEvents effects = [] := by
    refine List.filterMap_eq_nil_iff.mpr fun e he => ?_
    have hsearch := h e he
    cases e with
    | logged => cases hsearch
    | _ => rfl
  intro e he
  rw [hnone] at he
  cases he

theorem noticesJson_load : noticesJson.Binds w noticesJson.Trusts Loader.load := by
  have hloads : noticesJson.Loads w (fun _ => True) noticesJson.Trusts :=
    { opens := fun _ _ => nofun
      refuses := fun _ _ _ => trivial
      lacks := fun _ _ _ _ _ => trivial
      announces := fun path =>
        noticesJson_log (.loaded path) (List.forall_mem_singleton.mpr (.str path))
      remembers := fun _ _ _ _ _ => trivial
      remembered := fun _ _ _ _ _ _ => trivial }
  exact hloads.load noticesJson_locate

end Contract

/-- The name that a step gives a grammar can be held in a JSON text. -/
def Step.NamesJson : Step → Prop
  | operation (.verify name _ _) => name.IsJson
  | _ => True

namespace Session

open Logging

variable {s : Session}

theorem notice_of_mem_step {st : Step} (ho : st.isOwn) (hn : st.NamesJson) :
    ∀ e ∈ loggedEvents (s.effects st), e.IsNotice ∧ e.HoldsJson := by
  cases st with
  | change c =>
    rw [effects_change]
    exact nofun
  | operation o =>
    have hbinds : Contract.noticesJson.Binds s.world (fun _ => True) o.run := by
      refine Contract.noticesJson_serves.own ho (q := s.process) ?_ (fun _ _ => trivial)
        Contract.noticesJson_load Contract.noticesJson_locate (fun _ _ => trivial)
        (fun _ _ => trivial) (fun _ _ => trivial) fun _ level format p _ => ?_
      · intro name factory engine heq
        rw [heq] at hn
        exact hn
      · rw [Action.configureLogging_apply]
        split <;> exact ⟨trivial, nofun, fun _ _ => trivial, fun _ _ => trivial⟩
    exact (hbinds s.process trivial).effects

/-- The events of a step that reach the threshold in force, if there is one. -/
def reached (s : Session) (st : Step) : List Event :=
  match (s.step st).1.process.logging with
  | none => []
  | some setup => (loggedEvents (s.effects st)).filter fun e => setup.threshold ≤ e.level.number

/-- The lines of a step. -/
def written (s : Session) (st : Step) : List String := writtenLines (s.effects st)

/-- A step under the JSON style writes the records of the events that reach the threshold. -/
theorem written_of_json {st : Step} (ho : st.isOwn) (hn : st.NamesJson)
    (hc : s.process.context = []) {threshold : Nat}
    (hl : (s.step st).1.process.logging = some ⟨threshold, .json⟩) :
    s.written st = (s.reached st).map fun e => e.jsonText s.world.now ++ "\n" := by
  obtain ⟨-, hhandled⟩ := handled_step ho hc
  rw [hl] at hhandled
  cases hhandled with
  | written hk hw =>
    rw [Setup.lines_json _ fun e he => (notice_of_mem_step ho hn e he).1] at hw
    have hlines : (s.written st).map (Except.ok : String → Except Failure String) =
        ((s.reached st).map fun e => e.jsonText s.world.now ++ "\n").map .ok := by
      rw [written, hw, reached, hl, List.map_map]
      rfl
    exact List.map_injective_iff.mpr (fun _ _ => Except.ok.inj) hlines

/-- Along a run under the JSON style the lines are the records of the events that reach the
threshold. -/
theorem trace_written_of_json {steps : List Step} (ho : ∀ st ∈ steps, st.isOwn)
    (hn : ∀ st ∈ steps, st.NamesJson) (hc : s.process.context = []) {setup : Setup}
    (hl : s.process.logging = some setup) (hs : setup.style = .json)
    (hjson : ∀ setup ∈ s.trace configured steps, setup.style = .json) :
    s.trace written steps =
        (s.trace reached steps).map (fun e => e.jsonText s.world.now ++ "\n") ∧
      ∀ e ∈ s.trace reached steps, e.IsNotice ∧ e.HoldsJson := by
  induction steps generalizing s setup with
  | nil => exact ⟨rfl, nofun⟩
  | cons st rest ih =>
    obtain ⟨hst, hrest⟩ := List.forall_mem_cons.mp ho
    obtain ⟨hname, hnames⟩ := List.forall_mem_cons.mp hn
    obtain ⟨hfirst, hlater⟩ := List.forall_mem_append.mp hjson
    -- after the step the JSON style is in force still, be it by a new setup or by the old one
    obtain ⟨next, hnext, hstyle⟩ : ∃ next, (s.step st).1.process.logging = some next ∧
        next.style = .json := by
      rw [(handled_step hst hc).1, hl]
      cases hlast : (s.configured st).getLast? with
      | none => exact ⟨setup, rfl, hs⟩
      | some next => exact ⟨next, rfl, hfirst next (List.mem_of_getLast? hlast)⟩
    obtain ⟨hwritten, hnotices⟩ := ih hrest hnames (context_step hst hc) hnext hstyle hlater
    have hstep : s.written st = (s.reached st).map fun e => e.jsonText s.world.now ++ "\n" := by
      obtain ⟨threshold, style⟩ := next
      obtain rfl : style = .json := hstyle
      exact written_of_json hst hname hc hnext
    refine ⟨?_, ?_⟩
    · rw [trace, trace, List.map_append, hstep, hwritten, (keeps_step s st).2]
    · refine List.forall_mem_append.mpr ⟨fun e he => ?_, hnotices⟩
      rw [reached, hnext] at he
      exact notice_of_mem_step hst hname e (List.mem_of_mem_filter he)

/-- After logging has been configured for JSON, and until a call asks for another style, each event
that reaches the threshold leaves one line, in the order of the events. The line's only line end is
its last character, and what stands before it is read as the object of the event's own fields, what
it is, its level and the time. The log as a whole is read as these objects, so no text in an event
can end its record or start another one. -/
theorem json_lines_read_back (w : World) (before rest : List Step) (level : Value)
    (ho : ∀ st ∈ before ++ rest, st.isOwn) (hn : ∀ st ∈ rest, st.NamesJson) :
    let call := Step.operation (.configureLogging level (.str "json"))
    let s := (start w).after before
    let t := (s.step call).1
    (s.step call).2.answer = .ok .nothing →
    (∀ setup ∈ t.trace configured rest, setup.style = .json) →
    let events := t.trace reached rest
    let lines := t.trace written rest
    List.Forall₂ (fun e line => e.IsNotice ∧ ∃ text : String, line = text ++ "\n" ∧
      '\n' ∉ text.toList ∧ Json.read text = some (.object (e.fields t.world.now))) events lines ∧
    readLines (String.join lines) = some (events.map fun e => .object (e.fields t.world.now)) := by
  intro call s t hcall hjson events lines
  obtain ⟨hbefore, hrest⟩ := List.forall_mem_append.mp ho
  have hc : s.process.context = [] := context_after hbefore rfl
  -- the call has made a setup in the JSON style
  obtain ⟨setup, hmade, hstep⟩ := step_of_configured hcall
  have hl : t.process.logging = some setup := congrArg (fun r => r.1.process.logging) hstep
  have hstyle : setup.style = .json := Setup.style_of_make hmade rfl
  obtain ⟨hlines, hnotices⟩ :=
    trace_written_of_json hrest hn (context_step rfl hc) hl hstyle hjson
  have hlines : lines = events.map fun e => e.jsonText t.world.now ++ "\n" := hlines
  rw [hlines]
  refine ⟨?_, readLines_join hnotices⟩
  rw [List.forall₂_map_right_iff, List.forall₂_same]
  intro e he
  obtain ⟨hnotice, hjson⟩ := hnotices e he
  obtain ⟨hread, hline⟩ := hnotice.read_jsonText hjson t.world.now
  exact ⟨hnotice, _, rfl, hline, hread⟩

/-- A name with line ends, quotes and a character beyond the basic plane, and an error that looks
like a record of its own, stay inside their records. -/
theorem json_lines_read_back_hostile :
    let name := Value.object [("a\n", .list [.str "\x22😀\\", .int (.mk (-7)), .null, .bool true])]
    let text := "no\n\x7b\x22event\x22: \x22smoke_check_passed\x22\x7d\n"
    let rest : List Step := [
      .operation (.verify name (some (.error ↑(Failure.foreign .badType [.str text]))) none),
      .operation (.verify (.str "\n") (some (.ok .null)) none)]
    let s := start (World.naming (.exporting [Loader.symbolName]))
    let t := (s.step (.operation (.configureLogging (.str "info") (.str "json")))).1
    readLines (String.join (t.trace written rest)) = some [
      .object [("grammar", name), ("error", .str text), ("event", .str "grammar_load_failed"),
        ("level", .str "error"), ("timestamp", .str "2024-01-01T00:00:00Z")],
      .object [("grammar", .str "\n"), ("error", .str "empty language"),
        ("event", .str "grammar_load_failed"), ("level", .str "error"),
        ("timestamp", .str "2024-01-01T00:00:00Z")]] := by
  intro name text rest s t
  have hname : name.IsJson := by
    refine .object (by decide) (List.forall_mem_singleton.mpr (.list ?_))
    simp only [List.forall_mem_cons]
    exact ⟨.str _, .int _, .null, .bool true, List.forall_mem_nil _⟩
  have hnames : ∀ st ∈ rest, st.NamesJson :=
    List.forall_mem_cons.mpr ⟨hname, List.forall_mem_singleton.mpr (.str _)⟩
  have hread := (json_lines_read_back (World.naming (.exporting [Loader.symbolName])) [] rest
    (.str "info") (by decide) hnames rfl (List.forall_mem_nil _)).2
  exact hread.trans rfl

end Session

end GrammarLoader
