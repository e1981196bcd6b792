import GrammarLoader.Proofs.Settings.Winning
import Mathlib.Tactic.Choose

/-!
# Rejected sources

Sources are rejected for a search path that is no JSON text, the environment before its file and
whether or not its value would win, and after that for the values that win. All faults of those are
reported, each once: field by field, and the items of a search path by their index.
-/

namespace GrammarLoader.Settings

/-! ## Faults of values -/

/-- The value is one that the field may have. -/
def Fits : Field → Value → Prop
  | .library, v => v = .null ∨ ∃ text, v = .str text
  | .searchPath, v => ∃ texts : List String, v = .list (texts.map .str)
  | .logLevel, v => ∃ text, Text.upper text ∈ levelNames ∧ v = .str text
  | .logFormat, v => ∃ text ∈ formatNames, v = .str text

/-- What is wrong with a value that as a whole does not fit its field. -/
def misfit : Field → Problem
  | .library => .notText
  | .searchPath => .notList
  | .logLevel => .notLevel
  | .logFormat => .notFormat

/-- The faults of a field's value: an item of a search path that is no text, or else the whole
value if it does not fit. -/
inductive Faulty : Field → Value → Option Nat → Problem → Prop
  | item {items : List Value} {i : Nat} {v : Value} (hi : items[i]? = some v)
    (hv : ∀ text, v ≠ .str text) : Faulty .searchPath (.list items) (some i) .notText
  | whole {f : Field} {v : Value} (hlist : f = .searchPath → ∀ items, v ≠ .list items)
    (h : ¬ Fits f v) : Faulty f v none (misfit f)

/-- The place of a problem is before that of another one: in an earlier field, or at a smaller index
of the same one. -/
def Before (p q : FieldProblem) : Prop :=
  Field.all.idxOf p.field < Field.all.idxOf q.field ∨
    p.field = q.field ∧ ∃ i j, p.index = some i ∧ q.index = some j ∧ i < j

/-- The problems are the faults of the values of all fields, each once and in order. -/
structure Reports (values : Field → Value) (ps : List FieldProblem) : Prop where
  faults : ∀ f i problem, (∃ p ∈ ps, p.field = f ∧ p.index = i ∧ p.problem = problem) ↔
    Faulty f (values f) i problem
  order : ps.Pairwise Before
  once : (ps.map fun p => (p.field, p.index)).Nodup

/-- Problems in order are at different places. -/
theorem nodup_places {ps : List FieldProblem} (h : ps.Pairwise Before) :
    (ps.map fun p => (p.field, p.index)).Nodup := by
  rw [List.Nodup, List.pairwise_map]
  refine h.imp fun {p q} hbefore heq => ?_
  obtain ⟨hfield, hindex⟩ := Prod.mk.inj heq
  obtain hlt | ⟨-, i, j, hi, hj, hlt⟩ := hbefore
  · rw [hfield] at hlt
    exact Nat.lt_irrefl _ hlt
  · rw [hi, hj] at hindex
    cases hindex
    exact Nat.lt_irrefl _ hlt

theorem fits_path {items : List Value} :
    Fits .searchPath (.list items) ↔ ∀ v ∈ items, ∃ text, v = .str text := by
  constructor
  · rintro ⟨texts, h⟩ v hv
    cases h
    obtain ⟨text, -, rfl⟩ := List.mem_map.mp hv
    exact ⟨text, rfl⟩
  · intro h
    induction items with
    | nil => exact ⟨[], rfl⟩
    | cons v rest ih =>
      obtain ⟨⟨text, rfl⟩, hrest⟩ := List.forall_mem_cons.mp h
      obtain ⟨texts, heq⟩ := ih hrest
      cases heq
      exact ⟨text :: texts, rfl⟩

theorem not_fits_object (f : Field) (entries : Entries) : ¬ Fits f (.object entries) := by
  cases f <;> simp [Fits]

/-- A value that fits is one without faults. -/
theorem fits_iff {f : Field} {v : Value} : Fits f v ↔ ∀ i problem, ¬ Faulty f v i problem := by
  constructor
  · intro h i problem hfault
    cases hfault with
    | item hi hv =>
      obtain ⟨text, rfl⟩ := fits_path.mp h _ (List.mem_of_getElem? hi)
      exact hv text rfl
    | whole _ hfits => exact hfits h
  · intro h
    by_cases hlist : f = .searchPath ∧ ∃ items, v = .list items
    · obtain ⟨rfl, items, rfl⟩ := hlist
      refine fits_path.mpr fun v hv => ?_
      obtain ⟨i, hi⟩ := List.mem_iff_getElem?.mp hv
      by_cases htext : ∃ text, v = .str text
      · exact htext
      · exact absurd (.item hi fun text heq => htext ⟨text, heq⟩) (h _ _)
    · by_cases hfits : Fits f v
      · exact hfits
      · exact absurd (.whole (fun hf items hv => hlist ⟨hf, items, hv⟩) hfits) (h _ _)

theorem fits_default (f : Field) : Fits f (({} : Settings).get f) := by
  cases f with
  | library => exact .inl rfl
  | searchPath => exact ⟨[], rfl⟩
  | logLevel => exact ⟨"INFO", by decide +kernel, rfl⟩
  | logFormat => exact ⟨"console", by decide, rfl⟩

theorem Covers.faulty_iff {f : Field} {u v : Value} (h : Covers v u) {i : Option Nat}
    {problem : Problem} : Faulty f v i problem ↔ Faulty f u i problem := by
  have hobject {entries entries' : Entries} (h : Faulty f (.object entries) i problem) :
      Faulty f (.object entries') i problem := by
    cases h with
    | whole => exact .whole nofun (not_fits_object f entries')
  obtain rfl | ⟨⟨entries, rfl⟩, ⟨entries', rfl⟩⟩ := h
  · rfl
  · exact ⟨hobject, hobject⟩

/-! ## The problems of a field -/

/-- The problems are the faults of the value of one field, each once and in order. -/
structure ReportsField (f : Field) (v : Value) (ps : List FieldProblem) : Prop where
  field : ∀ p ∈ ps, p.field = f
  faults : ∀ i problem, (∃ p ∈ ps, p.index = i ∧ p.problem = problem) ↔ Faulty f v i problem
  order : ps.Pairwise Before

theorem ReportsField.of_covers {f : Field} {u v : Value} {ps : List FieldProblem}
    (h : ReportsField f v ps) (hcovers : Covers v u) : ReportsField f u ps where
  field := h.field
  faults i problem := (h.faults i problem).trans hcovers.faulty_iff
  order := h.order

theorem ReportsField.nil {f : Field} {v : Value} (h : Fits f v) : ReportsField f v [] where
  field := nofun
  faults i problem := ⟨nofun, fun hfault => absurd hfault (fits_iff.mp h i problem)⟩
  order := .nil

theorem ReportsField.whole {f : Field} {v : Value} (input : Value)
    (hlist : f = .searchPath → ∀ items, v ≠ .list items) (h : ¬ Fits f v) :
    ReportsField f v [⟨f, none, misfit f, input⟩] where
  field := by simp
  faults i problem := by
    simp only [List.mem_singleton, exists_eq_left]
    constructor
    · rintro ⟨rfl, rfl⟩
      exact .whole hlist h
    · intro hfault
      cases hfault with
      | item => exact absurd rfl (hlist rfl _)
      | whole => exact ⟨rfl, rfl⟩
  order := List.pairwise_singleton _ _

theorem mem_itemProblems {items : List Value} {index : Nat} {p : FieldProblem} :
    p ∈ itemProblems index items ↔ ∃ i v, items[i]? = some v ∧ (∀ text, v ≠ .str text) ∧
      p = ⟨.searchPath, some (index + i), .notText, v⟩ := by
  induction items generalizing index with
  | nil => simp [itemProblems]
  | cons u rest ih =>
    have hindex (i : Nat) : index + 1 + i = index + (i + 1) := by omega
    have htail : p ∈ itemProblems (index + 1) rest ↔ ∃ i v, (u :: rest)[i + 1]? = some v ∧
        (∀ text, v ≠ .str text) ∧ p = ⟨.searchPath, some (index + (i + 1)), .notText, v⟩ := by
      simp only [ih, hindex, List.getElem?_cons_succ]
    cases u with
    | str text =>
      rw [itemProblems, htail]
      constructor
      · rintro ⟨i, v, h⟩
        exact ⟨i + 1, v, h⟩
      · rintro ⟨_ | i, v, hi, hv, hp⟩
        · exact absurd (Option.some.inj hi).symm (hv text)
        · exact ⟨i, v, hi, hv, hp⟩
    | null | bool | int | real | list | object =>
      rw [itemProblems, List.mem_cons, htail]
      · constructor
        · rintro (rfl | ⟨i, v, h⟩)
          · exact ⟨0, _, rfl, nofun, rfl⟩
          · exact ⟨i + 1, v, h⟩
        · rintro ⟨_ | i, v, hi, hv, hp⟩
          · cases hi
            exact .inl hp
          · exact .inr ⟨i, v, hi, hv, hp⟩
      · nofun

theorem pairwise_itemProblems (index : Nat) (items : List Value) :
    (itemProblems index items).Pairwise Before := by
  fun_induction itemProblems index items with
  | case1 => exact .nil
  | case2 _ _ _ ih => exact ih
  | case3 index v rest _ ih =>
    refine .cons (fun p hp => ?_) ih
    obtain ⟨i, u, -, -, rfl⟩ := mem_itemProblems.mp hp
    exact .inr ⟨rfl, index, index + 1 + i, rfl, rfl, by omega⟩

theorem ReportsField.items (items : List Value) :
    ReportsField .searchPath (.list items) (itemProblems 0 items) where
  field p hp := by
    obtain ⟨i, v, -, -, rfl⟩ := mem_itemProblems.mp hp
    rfl
  faults i problem := by
    simp only [mem_itemProblems]
    constructor
    · rintro ⟨p, ⟨i, v, hi, hv, rfl⟩, rfl, rfl⟩
      rw [Nat.zero_add]
      exact .item hi hv
    · intro hfault
      cases hfault with
      | @item _ i v hi hv => exact ⟨_, ⟨i, v, hi, hv, rfl⟩, by simp, rfl⟩
      | whole hlist => exact absurd rfl (hlist rfl items)
  order := pairwise_itemProblems 0 items

/-- A value that should be one of some names has no problem, or one as a whole. -/
theorem ReportsField.names {f : Field} {v held : Value} {names : List String}
    (hf : f ≠ .searchPath) (h : Fits f v ↔ ∃ text ∈ names, held = .str text) :
    ReportsField f v (nameProblems f (misfit f) names held) := by
  have hwhole (hheld : ¬ ∃ text ∈ names, held = .str text) :
      ReportsField f v [⟨f, none, misfit f, held⟩] :=
    .whole held (fun hpath => absurd hpath hf) (mt h.mp hheld)
  cases held with
  | str text =>
    by_cases hname : text ∈ names
    · have hnil : nameProblems f (misfit f) names (.str text) = [] := by
        simp [nameProblems, hname]
      rw [hnil]
      exact .nil (h.mpr ⟨text, hname, rfl⟩)
    · have hone : nameProblems f (misfit f) names (.str text) =
          [⟨f, none, misfit f, .str text⟩] := by
        simp [nameProblems, hname]
      rw [hone]
      exact hwhole (by simpa using hname)
  | null | bool | int | real | list | object => exact hwhole (by simp)

/-- A check of a value reports its faults. -/
theorem reportsField_problems (f : Field) (v : Value) :
    ReportsField f v (problems f (normalised f v)) := by
  cases f with
  | library =>
    cases v with
    | null => exact .nil (.inl rfl)
    | str text => exact .nil (.inr ⟨text, rfl⟩)
    | bool | int | real | list | object => exact .whole _ nofun (by simp [Fits])
  | searchPath =>
    cases v with
    | list items => exact .items items
    | null | bool | int | real | str | object => exact .whole _ nofun (by simp [Fits])
  | logLevel =>
    refine .names nofun ?_
    cases v <;> simp [Fits, normalised]
  | logFormat => exact .names nofun .rfl

/-! ## The problems of all fields -/

theorem pairwise_flatMap_fields {ps : Field → List FieldProblem}
    (hfield : ∀ f, ∀ p ∈ ps f, p.field = f) (horder : ∀ f, (ps f).Pairwise Before) :
    (Field.all.flatMap ps).Pairwise Before := by
  rw [List.pairwise_flatMap]
  refine ⟨fun f _ => horder f, ?_⟩
  have hfields : Field.all.Pairwise fun f g => Field.all.idxOf f < Field.all.idxOf g := by decide
  refine hfields.imp fun {f g} hlt p hp q hq => .inl ?_
  rw [hfield f p hp, hfield g q hq]
  exact hlt

/-- The problems of the fields one after another are those of all fields. -/
theorem reports_flatMap {values : Field → Value} {ps : Field → List FieldProblem}
    (h : ∀ f, ReportsField f (values f) (ps f)) : Reports values (Field.all.flatMap ps) := by
  have horder := pairwise_flatMap_fields (fun f => (h f).field) fun f => (h f).order
  refine ⟨fun f i problem => ?_, horder, nodup_places horder⟩
  rw [← (h f).faults]
  constructor
  · rintro ⟨p, hp, rfl, hplace⟩
    obtain ⟨g, -, hp⟩ := List.mem_flatMap.mp hp
    exact ⟨p, (h g).field p hp ▸ hp, hplace⟩
  · rintro ⟨p, hp, hplace⟩
    exact ⟨p, List.mem_flatMap.mpr ⟨f, Field.mem_all f, hp⟩, (h f).field p hp, hplace⟩

/-- There is nothing to report if every value fits. -/
theorem Reports.eq_nil_iff {values : Field → Value} {ps : List FieldProblem}
    (h : Reports values ps) : ps = [] ↔ ∀ f, Fits f (values f) := by
  simp only [fits_iff, ← h.faults]
  constructor
  · rintro rfl f i problem ⟨p, hp, -⟩
    cases hp
  · intro hnone
    refine List.eq_nil_iff_forall_not_mem.mpr fun p hp => ?_
    exact hnone p.field p.index p.problem ⟨p, hp, rfl, rfl, rfl⟩

namespace Sources

variable {s : Sources}

/-- Where each source can be read, the problems of what they give are the faults of the values that
win. -/
theorem reports_of_readable (h : ∀ o, ¬ s.Unreadable o) :
    ∃ (d : Draft) (values : Field → Value), s.draft = .ok d ∧
      (∀ f v, s.Wins f v ↔ v = values f) ∧ Reports values d.problems := by
  obtain ⟨drafts, hdrafts, hdraft⟩ := draft_of_readable h
  choose values hwins hvalues using hdrafts.wins
  refine ⟨_, values, hdraft, fun f v => ⟨fun hv => hv.unique (hwins f), ?_⟩, ?_⟩
  · rintro rfl
    exact hwins f
  · refine reports_flatMap fun f => ?_
    have hvalue := hvalues f
    cases hmerged : Draft.merged drafts f with
    | none =>
      rw [hmerged] at hvalue
      rw [hvalue]
      exact .nil (fits_default f)
    | some v =>
      -- objects that are laid over one another are no value that wins, but as bad as it
      rw [hmerged] at hvalue
      exact (reportsField_problems f v).of_covers hvalue

end Sources

/-- Sources are rejected for a search path in one of them that is no JSON text, the environment
first, whether or not its value would win. Otherwise there are settings if every value that wins
fits its field, and if not, then the faults of these values are reported. -/
theorem outcome_of_sources (s : Sources) :
    (s.Unreadable .environment → ofSources s = .error (.unreadable .environment)) ∧
      (¬ s.Unreadable .environment → s.Unreadable .envFile →
        ofSources s = .error (.unreadable .envFile)) ∧
      ((∀ o, ¬ s.Unreadable o) → ∃ values : Field → Value, (∀ f v, s.Wins f v ↔ v = values f) ∧
        ((∃ settings, ofSources s = .ok settings) ↔ ∀ f, Fits f (values f)) ∧
        ((∃ f, ¬ Fits f (values f)) →
          ∃ ps, ofSources s = .error (.invalid ps) ∧ Reports values ps)) := by
  refine ⟨?_, ?_, ?_⟩
  · exact fun h => Sources.ofSources_of_error (Sources.draft_of_unreadable_environment h)
  · exact fun henvironment h =>
      Sources.ofSources_of_error (Sources.draft_of_unreadable_envFile henvironment h)
  · intro h
    obtain ⟨d, values, hdraft, hwins, hreports⟩ := Sources.reports_of_readable h
    refine ⟨values, hwins, ?_⟩
    rw [Sources.ofSources_of_draft hdraft, ← hreports.eq_nil_iff, ← not_forall,
      ← hreports.eq_nil_iff]
    cases hproblems : d.problems with
    | nil => exact ⟨⟨fun _ => rfl, fun _ => ⟨_, rfl⟩⟩, fun h => absurd rfl h⟩
    | cons p ps => exact ⟨⟨nofun, nofun⟩, fun _ => ⟨_, rfl, hproblems ▸ hreports⟩⟩

/-- The places at which an outcome has problems. -/
def reportedPlaces : Except SettingsError Settings → List (Field × Option Nat)
  | .error (.invalid ps) => ps.map fun p => (p.field, p.index)
  | .error (.unreadable _) | .ok _ => []

/-- A given search path does not save one in the environment that is no JSON; and two bad items, a
level that hides a good one and a format in upper case are four faults. -/
theorem outcome_of_sources_faulty :
    let path := "tree_sitter_kpl_search_path"
    let s : Sources := ⟨[("LOG_LEVEL", .int (.mk 5))], [("LOG_LEVEL", "info"),
      (path, "[1, \x22/a\x22, null]")], some "LOG_FORMAT=JSON"⟩
    ofSources ⟨[("TREE_SITTER_KPL_SEARCH_PATH", .list [])], [(path, "[")], none⟩ =
        .error (.unreadable .environment) ∧
      (∃ ps, ofSources s = .error (.invalid ps) ∧ ps.Pairwise Before) ∧
      reportedPlaces (ofSources s) =
        [(.searchPath, some 0), (.searchPath, some 2), (.logLevel, none), (.logFormat, none)] := by
  intro path s
  refine ⟨?_, ?_, by decide +kernel⟩
  · refine (outcome_of_sources _).1 (Sources.unreadable_iff.mpr ⟨"[", by decide +kernel, ?_⟩)
    exact Option.isNone_iff_eq_none.mp (by decide +kernel)
  · have hreadable (o : Origin) : ¬ s.Unreadable o := by
      intro h
      obtain ⟨text, htext, hread⟩ := Sources.unreadable_iff.mp h
      have hsome : ((textFor (s.variables o) .searchPath).bind Json.read).isSome ∨
          textFor (s.variables o) .searchPath = none := by
        cases o <;> decide +kernel
      simp [htext, hread] at hsome
    obtain ⟨values, -, hsettings, hfaults⟩ := (outcome_of_sources s).2.2 hreadable
    have hmisfit : ∃ f, ¬ Fits f (values f) := by
      refine not_forall.mp fun hfits => ?_
      obtain ⟨settings, hs⟩ := hsettings.mpr hfits
      have hnone : (ofSources s).toOption.isNone := by decide +kernel
      rw [hs] at hnone
      cases hnone
    obtain ⟨ps, hps, hreports⟩ := hfaults hmisfit
    exact ⟨ps, hps, hreports.order⟩

/-- A search path of null does not fit, and yet it is not rejected in the environment, where it
gives no value. -/
theorem null_path_accepted :
    (Json.read "null" = some .null ∧ ¬ Fits .searchPath .null) ∧
      (ofSources ⟨[], [("TREE_SITTER_KPL_SEARCH_PATH", "null")], none⟩).toOption.map
        (fun settings => (settings.searchPath.shown, settings.explicit)) = some ("[]", []) := by
  refine ⟨⟨by rfl, by simp [Fits]⟩, by decide +kernel⟩

end GrammarLoader.Settings
