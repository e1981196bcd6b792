import GrammarLoader.Proofs.Effect

/-!
# When an event can be written

An event of the binding is logged in any case; its line may still fail. That happens for people's
lines only, and only because of the context: a stack or an exception bound there that is no text
cannot be added to the line. The obstacle is a function of the setup, the context and the level, so
a process without context can write every event.
-/

namespace GrammarLoader

namespace Logging

/-- What keeps the value of a key from being added to a line. -/
def unwritable (entries : Entries) (key : String) : Option Failure :=
  match entries.lookup key with
  | none | some .null | some (.str _) => none
  | some v => some (.notAppendable v.typeName)

theorem unwritable_eq_notAppendable {entries : Entries} {key : String} {f : Failure}
    (h : unwritable entries key = some f) : ∃ type, f = .notAppendable type := by
  unfold unwritable at h
  split at h
  · cases h
  · cases h
  · cases h
  · exact ⟨_, (Option.some.inj h).symm⟩

/-- Entries whose stack and exception, if they have any, can be added to a line. -/
def Harmless (entries : Entries) : Prop :=
  ∀ entry ∈ entries, entry.1 = "stack" ∨ entry.1 = "exception" →
    entry.2 = .null ∨ ∃ s, entry.2 = .str s

theorem Harmless.nil : Harmless [] := nofun

theorem Harmless.insertAll {old new : Entries} (h : Harmless old) (h' : Harmless new) :
    Harmless (Assoc.insertAll old new) := fun entry hentry =>
  (Assoc.mem_of_mem_insertAll hentry).elim (h entry) (h' entry)

theorem Harmless.unwritable_eq_none {entries : Entries} (h : Harmless entries) {key : String}
    (hkey : key = "stack" ∨ key = "exception") : unwritable entries key = none := by
  unfold unwritable
  cases hv : entries.lookup key with
  | none => rfl
  | some v =>
    obtain ⟨before, after, rfl, -⟩ := List.lookup_eq_some_iff.mp hv
    obtain hnull | ⟨s, hs⟩ := h (key, v) (by simp) hkey
    · rw [show v = .null from hnull]
    · rw [show v = .str s from hs]

theorem Console.block_eq (entries : Entries) (key : String) :
    (∃ s, block (entries.lookup key) = .ok s ∧ unwritable entries key = none) ∨
      ∃ f, block (entries.lookup key) = .error f ∧ unwritable entries key = some f := by
  unfold unwritable
  cases entries.lookup key with
  | none => exact .inl ⟨_, rfl, rfl⟩
  | some v =>
    cases v with
    | null | str => exact .inl ⟨_, rfl, rfl⟩
    | bool | int | real | list | object => exact .inr ⟨_, rfl, rfl⟩

/-- A line for people fails for the stack first, then for the exception. -/
theorem Console.text_eq (record : Entries) :
    match (unwritable record "stack").or (unwritable record "exception") with
    | none => ∃ s, text record = .ok s
    | some f => text record = .error f := by
  unfold text
  obtain ⟨s, hs, hu⟩ | ⟨f, hs, hu⟩ := block_eq record "stack"
  · obtain ⟨t, ht, hv⟩ | ⟨f, ht, hv⟩ := block_eq record "exception"
    · rw [hu, hv, hs, ht]
      exact ⟨_, rfl⟩
    · rw [hu, hv, hs, ht]
      rfl
  · rw [hu, hs]
    rfl

/-- A line fails for nothing else. -/
theorem Style.line_eq_notAppendable {style : Style} {record : Entries} {f : Failure}
    (h : style.line record = .error f) : ∃ type, f = .notAppendable type := by
  cases style with
  | json => cases h
  | console =>
    have ht := Console.text_eq record
    unfold Style.line at h
    dsimp only at h
    split at ht
    · obtain ⟨line, hline⟩ := ht
      rw [hline] at h
      cases h
    · rename_i g hg
      rw [ht] at h
      cases h
      obtain hs | ⟨-, hx⟩ := Option.or_eq_some_iff.mp hg
      · exact unwritable_eq_notAppendable hs
      · exact unwritable_eq_notAppendable hx

namespace Event

/-- An event that brings neither a stack nor an exception of its own. -/
def IsPlain (e : Event) : Prop :=
  e.contents.lookup "stack" = none ∧ e.contents.lookup "exception" = none

theorem named_isPlain {level : Level} {name : String} {entries : Entries}
    (hs : entries.lookup "stack" = none) (he : entries.lookup "exception" = none) :
    (named level name entries).IsPlain := by
  constructor
  · exact (Assoc.lookup_insert_of_ne _ _ (by decide)).trans hs
  · exact (Assoc.lookup_insert_of_ne _ _ (by decide)).trans he

theorem lookup_addContext (context entries : Entries) (key : String) :
    (addContext context entries).lookup key = (entries.lookup key).or (context.lookup key) := by
  unfold addContext
  induction context generalizing entries with
  | nil => simp
  | cons entry rest ih =>
    obtain ⟨k, v⟩ := entry
    rw [List.foldl_cons, ih]
    cases hk : entries.lookup k with
    | some old =>
      -- a key that is taken hides the entry of the context
      simp only [Option.isSome_some, if_true]
      by_cases hkey : key = k
      · subst hkey
        simp [hk]
      · have hne : (key == k) = false := by simpa using hkey
        simp [List.lookup_cons, hne]
    | none =>
      simp only [Option.isSome_none, Bool.false_eq_true, if_false, List.lookup_append]
      by_cases hkey : key = k
      · subst hkey
        simp [hk]
      · have hne : (key == k) = false := by simpa using hkey
        simp [List.lookup_cons, hne]

theorem lookup_withoutTraceKeys (entries : Entries) (key : String) (hkey : key ∉ traceKeys) :
    (entries.filter (fun p => !traceKeys.contains p.1)).lookup key = entries.lookup key := by
  induction entries with
  | nil => rfl
  | cons entry rest ih =>
    obtain ⟨k, v⟩ := entry
    by_cases hk : key = k
    · subst hk
      simp [hkey]
    · have hne : (key == k) = false := by simpa using hk
      rw [List.filter_cons]
      split
      · rw [List.lookup_cons, List.lookup_cons, hne, ih]
      · rw [List.lookup_cons, hne, ih]

/-- A line shows of the keys without a column the event's own values first, then the context's. -/
theorem lookup_record (context : Entries) (now : Moment) (e : Event) (key : String)
    (htrace : key ∉ traceKeys) (htime : key ≠ "timestamp") (hlevel : key ≠ "level") :
    (e.record context now).lookup key = (e.contents.lookup key).or (context.lookup key) := by
  unfold record
  rw [lookup_withoutTraceKeys _ key htrace, Assoc.lookup_insert_of_ne _ _ htime,
    Assoc.lookup_insert_of_ne _ _ hlevel, lookup_addContext]

theorem IsPlain.unwritable_record {e : Event} (h : e.IsPlain) (context : Entries) (now : Moment) :
    unwritable (e.record context now) "stack" = unwritable context "stack" ∧
      unwritable (e.record context now) "exception" = unwritable context "exception" := by
  have hs := e.lookup_record context now "stack" (by decide) (by decide) (by decide)
  have he := e.lookup_record context now "exception" (by decide) (by decide) (by decide)
  rw [h.1, Option.none_or] at hs
  rw [h.2, Option.none_or] at he
  exact ⟨by rw [unwritable, hs, unwritable], by rw [unwritable, he, unwritable]⟩

end Event

end Logging

/-- What keeps an event of a level from being written, if logging is set up and the level reaches
the threshold. -/
def Process.obstacle (p : Process) (level : Logging.Level) : Option Failure :=
  match p.logging with
  | some ⟨threshold, .console⟩ =>
    if level.number < threshold then none
    else (Logging.unwritable p.context "stack").or (Logging.unwritable p.context "exception")
  | _ => none

theorem Process.obstacle_of_harmless {p : Process} (h : Logging.Harmless p.context)
    (level : Logging.Level) : p.obstacle level = none := by
  unfold obstacle
  rw [h.unwritable_eq_none (.inl rfl), h.unwritable_eq_none (.inr rfl)]
  split
  · exact ite_self _
  · rfl

theorem Process.obstacle_of_context_nil {p : Process} (h : p.context = []) (level : Logging.Level) :
    p.obstacle level = none :=
  p.obstacle_of_harmless (h ▸ .nil) level

theorem Process.obstacle_eq_notAppendable {p : Process} {level : Logging.Level} {f : Failure}
    (h : p.obstacle level = some f) : ∃ type, f = .notAppendable type := by
  unfold obstacle at h
  split at h
  · split at h
    · cases h
    · obtain hs | ⟨-, hx⟩ := Option.or_eq_some_iff.mp h
      · exact Logging.unwritable_eq_notAppendable hs
      · exact Logging.unwritable_eq_notAppendable hx
  · cases h

/-- An obstacle to a level is one to every higher level. -/
theorem Process.obstacle_mono {p : Process} {low high : Logging.Level} {f : Failure}
    (hle : low.number ≤ high.number) (h : p.obstacle low = some f) : p.obstacle high = some f := by
  unfold obstacle at h ⊢
  split at h
  · rename_i threshold _
    split at h
    · cases h
    · rw [if_neg (by omega), h]
  · cases h

/-- Where a level meets no obstacle no lower level does. -/
theorem Process.obstacle_eq_none_of_le {p : Process} {low high : Logging.Level}
    (hle : low.number ≤ high.number) (h : p.obstacle high = none) : p.obstacle low = none := by
  cases ho : p.obstacle low with
  | none => rfl
  | some f =>
    rw [obstacle_mono hle ho] at h
    cases h

namespace Action

variable (e : Logging.Event) (w : World) (p : Process)

@[simp] theorem log_process : (log e w p).process = p := by
  unfold log
  split
  · rfl
  · split
    · rfl
    · split <;> rfl

/-- Logging an event is one effect; what may follow is the event kept or its line. -/
theorem log_effects : (log e w p).effects = [.logged e] ∨
    (log e w p).effects = [.logged e, .kept e] ∨
    ∃ line, (log e w p).effects = [.logged e, .wrote line] := by
  unfold log
  split
  · exact .inr (.inl rfl)
  · split
    · exact .inl rfl
    · split
      · exact .inr (.inr ⟨_, rfl⟩)
      · exact .inl rfl

@[simp] theorem loggedEvents_log : loggedEvents (log e w p).effects = [e] := by
  obtain h | h | ⟨line, h⟩ := log_effects e w p <;> rw [h] <;> rfl

@[simp] theorem openedPaths_log : openedPaths (log e w p).effects = [] := by
  obtain h | h | ⟨line, h⟩ := log_effects e w p <;> rw [h] <;> rfl

@[simp] theorem calledSymbols_log : calledSymbols (log e w p).effects = [] := by
  obtain h | h | ⟨line, h⟩ := log_effects e w p <;> rw [h] <;> rfl

@[simp] theorem engagedObjects_log : engagedObjects (log e w p).effects = [] := by
  obtain h | h | ⟨line, h⟩ := log_effects e w p <;> rw [h] <;> rfl

theorem isLookup_of_mem_log {effect : Effect} (h : effect ∈ (log e w p).effects) :
    effect.isLookup = false := by
  obtain hl | hl | ⟨line, hl⟩ := log_effects e w p <;> rw [hl] at h <;>
    simp only [List.mem_cons, List.not_mem_nil, or_false] at h
  · rw [h]
    rfl
  · obtain rfl | rfl := h <;> rfl
  · obtain rfl | rfl := h <;> rfl

theorem log_answer_eq_notAppendable {f : Fault} (h : (log e w p).answer = .error f) :
    ∃ type, f = ↑(Failure.notAppendable type) := by
  unfold log at h
  split at h
  · cases h
  · split at h
    · cases h
    · split at h
      · cases h
      · rename_i hline
        cases h
        obtain ⟨type, rfl⟩ := Logging.Style.line_eq_notAppendable hline
        exact ⟨type, rfl⟩

/-- Logging a plain event fails exactly where the process has an obstacle to it. -/
theorem log_answer {e : Logging.Event} (he : e.IsPlain) :
    (log e w p).answer = match p.obstacle e.level with
      | none => .ok ()
      | some f => .error ↑f := by
  unfold log Process.obstacle
  cases hl : p.logging with
  | none => rfl
  | some setup =>
    obtain ⟨threshold, style⟩ := setup
    by_cases hlow : e.level.number < threshold
    · cases style <;> simp [hlow]
    · cases style with
      | json => simp [hlow, Logging.Style.line]
      | console =>
        obtain ⟨hs, hx⟩ := he.unwritable_record p.context w.now
        have ht := Logging.Console.text_eq (e.record p.context w.now)
        rw [hs, hx] at ht
        simp only [hlow, if_false, Logging.Style.line]
        split at ht
        · obtain ⟨line, hline⟩ := ht
          rw [hline]
          rfl
        · rw [ht]
          rfl

end Action

end GrammarLoader
