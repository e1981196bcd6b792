import GrammarLoader.Proofs.Settings.Valid

/-!
# The value that wins

Each source gives values for some of the fields: the given values under their names, the
environment and its file as texts that are decoded. Of the sources that give a field a value the
highest one wins, and the default where none does. What the sources give together is, field by
field, the value that wins, but for objects, which are laid over one another and fit no field.
-/

namespace GrammarLoader.Settings

/-! ## What a source gives -/

/-- The sources of values. -/
inductive Source where
  | given
  | texts (origin : Origin)
  deriving DecidableEq

/-- The place of a source; a lower one counts before a higher one. -/
def Source.rank : Source → Nat
  | given => 0
  | texts .environment => 1
  | texts .envFile => 2

/-- The variables of a source that holds texts. -/
def Sources.variables (s : Sources) : Origin → EnvFile.Variables
  | .environment => environmentVariables s.environment
  | .envFile => EnvFile.read (Assoc.ofPairs s.environment) (s.envFile.getD "")

/-- The value is that of the last entry whose name differs from the field's in case only. -/
def LastNamed {α : Type} (f : Field) (mapping : List (String × α)) (value : α) : Prop :=
  ∃ before name after, mapping = before ++ (name, value) :: after ∧ f.isNamed name ∧
    ∀ p ∈ after, f.isNamed p.1 = false

/-- A text stands for itself; that of a search path is JSON, and gives no value if it is null. -/
inductive Decodes : Field → String → Value → Prop
  | text {f : Field} {text : String} (hf : f ≠ .searchPath) : Decodes f text (.str text)
  | path {text : String} {v : Value} (hread : Json.read text = some v) (hv : v ≠ .null) :
    Decodes .searchPath text v

/-- A source gives a field a value. A given value counts under exactly the field's name, and under
one that differs in case only if that is not there. -/
inductive Sources.Gives (s : Sources) : Source → Field → Value → Prop
  | named {f : Field} {v : Value} (h : (Assoc.ofPairs s.given).lookup f.name = some v) :
    Gives s .given f v
  | spelled {f : Field} {v : Value} (hname : (Assoc.ofPairs s.given).lookup f.name = none)
    (h : LastNamed f (Assoc.ofPairs s.given) v) : Gives s .given f v
  | decoded {o : Origin} {f : Field} {text : String} {v : Value}
    (h : LastNamed f (s.variables o) (some text)) (hv : Decodes f text v) : Gives s (.texts o) f v

/-- A source has a text for the search path that is no JSON. -/
def Sources.Unreadable (s : Sources) (o : Origin) : Prop :=
  ∃ text, LastNamed .searchPath (s.variables o) (some text) ∧ Json.read text = none

/-- A source gives a field a value, and no higher one does. -/
structure Sources.Highest (s : Sources) (source : Source) (f : Field) (v : Value) : Prop where
  gives : s.Gives source f v
  highest : ∀ higher u, higher.rank < source.rank → ¬ s.Gives higher f u

/-- The value of a field that wins: that of the highest source that gives one, or the default. -/
inductive Sources.Wins (s : Sources) (f : Field) : Value → Prop
  | source {source : Source} {v : Value} (h : s.Highest source f v) : Wins s f v
  | default (h : ∀ source v, ¬ s.Gives source f v) : Wins s f (({} : Settings).get f)

/-! ## Look-up of names -/

theorem lastNamed_iff {α : Type} {f : Field} {mapping : List (String × α)} {value : α} :
    LastNamed f mapping value ↔
      (mapping.reverse.find? (fun p => f.isNamed p.1)).map (·.2) = some value := by
  rw [Option.map_eq_some_iff]
  constructor
  · rintro ⟨before, name, after, rfl, hname, hafter⟩
    refine ⟨(name, value), List.find?_eq_some_iff_append.mpr ⟨hname, ?_⟩, rfl⟩
    refine ⟨after.reverse, before.reverse, by simp, ?_⟩
    intro p hp
    simp [hafter p (List.mem_reverse.mp hp)]
  · rintro ⟨p, hfind, rfl⟩
    obtain ⟨hname, as, bs, hreverse, has⟩ := List.find?_eq_some_iff_append.mp hfind
    refine ⟨bs.reverse, p.1, as.reverse, ?_, hname, ?_⟩
    · rw [← List.reverse_inj, hreverse]
      simp
    · intro q hq
      simpa using has q (List.mem_reverse.mp hq)

theorem lastNamed_some_iff {f : Field} {vars : EnvFile.Variables} {text : String} :
    LastNamed f vars (some text) ↔ textFor vars f = some text := by
  rw [lastNamed_iff, textFor]
  cases (vars.reverse.find? (fun p => f.isNamed p.1)).map (·.2) <;> simp

theorem gives_given_iff {s : Sources} {f : Field} {v : Value} :
    s.Gives .given f v ↔ givenDraft s.given f = some v := by
  unfold givenDraft
  dsimp only
  constructor
  · intro h
    cases h with
    | named h => rw [h]
    | spelled hname h => rw [hname, lastNamed_iff.mp h]
  · intro h
    cases hname : (Assoc.ofPairs s.given).lookup f.name with
    | some u =>
      rw [hname] at h
      exact .named (hname.trans h)
    | none =>
      rw [hname] at h
      exact .spelled hname (lastNamed_iff.mpr h)

theorem gives_texts_iff {s : Sources} {o : Origin} {f : Field} {v : Value} :
    s.Gives (.texts o) f v ↔ ∃ text, textFor (s.variables o) f = some text ∧ Decodes f text v := by
  constructor
  · intro h
    cases h with
    | decoded h hv => exact ⟨_, lastNamed_some_iff.mp h, hv⟩
  · rintro ⟨text, htext, hv⟩
    exact .decoded (lastNamed_some_iff.mpr htext) hv

theorem Decodes.unique {f : Field} {text : String} {u v : Value} (hu : Decodes f text u)
    (hv : Decodes f text v) : u = v := by
  cases hu with
  | text hf =>
    cases hv with
    | text => rfl
    | path => exact absurd rfl hf
  | path hread =>
    cases hv with
    | text hf => exact absurd rfl hf
    | path hread' => exact Option.some.inj (hread.symm.trans hread')

theorem Sources.Gives.unique {s : Sources} {source : Source} {f : Field} {u v : Value}
    (hu : s.Gives source f u) (hv : s.Gives source f v) : u = v := by
  cases source with
  | given => exact Option.some.inj ((gives_given_iff.mp hu).symm.trans (gives_given_iff.mp hv))
  | texts o =>
    obtain ⟨text, htext, hu⟩ := gives_texts_iff.mp hu
    obtain ⟨text', htext', hv⟩ := gives_texts_iff.mp hv
    obtain rfl := Option.some.inj (htext.symm.trans htext')
    exact hu.unique hv

theorem Source.rank_inj {a b : Source} (h : a.rank = b.rank) : a = b := by
  cases a with
  | given =>
    cases b with
    | given => rfl
    | texts o => cases o <;> cases h
  | texts o =>
    cases b with
    | given => cases o <;> cases h
    | texts o' => cases o <;> cases o' <;> first | rfl | cases h

theorem Sources.Highest.unique {s : Sources} {a b : Source} {f : Field} {u v : Value}
    (ha : s.Highest a f u) (hb : s.Highest b f v) : u = v := by
  obtain hlt | heq | hlt := Nat.lt_trichotomy a.rank b.rank
  · exact absurd ha.gives (hb.highest _ _ hlt)
  · obtain rfl := Source.rank_inj heq
    exact ha.gives.unique hb.gives
  · exact absurd hb.gives (ha.highest _ _ hlt)

/-- One value wins. -/
theorem Sources.Wins.unique {s : Sources} {f : Field} {u v : Value} (hu : s.Wins f u)
    (hv : s.Wins f v) : u = v := by
  cases hu with
  | source ha =>
    cases hv with
    | source hb => exact ha.unique hb
    | default h => exact absurd ha.gives (h _ _)
  | default h =>
    cases hv with
    | source hb => exact absurd hb.gives (h _ _)
    | default => rfl

/-! ## What the sources give together -/

theorem textDraft_of_unreadable {o : Origin} {vars : EnvFile.Variables} {text : String}
    (htext : textFor vars .searchPath = some text) (hread : Json.read text = none) :
    textDraft o vars = .error (.unreadable o) := by
  unfold textDraft
  rw [htext]
  dsimp only
  rw [hread]

theorem decodes_of_ne {f : Field} (hf : f ≠ .searchPath) {text : String} {v : Value} :
    Decodes f text v ↔ .str text = v := by
  constructor
  · intro h
    cases h with
    | text => rfl
    | path => exact absurd rfl hf
  · rintro rfl
    exact .text hf

theorem decodes_searchPath {text : String} {v : Value} :
    Decodes .searchPath text v ↔ Json.read text = some v ∧ v ≠ .null := by
  constructor
  · intro h
    cases h with
    | text hf => exact absurd rfl hf
    | path hread hv => exact ⟨hread, hv⟩
  · rintro ⟨hread, hv⟩
    exact .path hread hv

/-- A source whose search path can be read gives the values of its texts. -/
theorem textDraft_of_readable {o : Origin} {vars : EnvFile.Variables}
    (h : ∀ text, textFor vars .searchPath = some text → Json.read text ≠ none) :
    ∃ d, textDraft o vars = .ok d ∧
      ∀ f v, d f = some v ↔ ∃ text, textFor vars f = some text ∧ Decodes f text v := by
  have hdraft {path : Option Value} (hpath : ∀ v, path = some v ↔ ∃ text,
      textFor vars .searchPath = some text ∧ Decodes .searchPath text v) (f : Field) (v : Value) :
      (if f = .searchPath then path else (textFor vars f).map Value.str) = some v ↔
        ∃ text, textFor vars f = some text ∧ Decodes f text v := by
    by_cases hf : f = .searchPath
    · subst hf
      exact hpath v
    · simp only [if_neg hf, Option.map_eq_some_iff, decodes_of_ne hf]
  unfold textDraft
  cases htext : textFor vars .searchPath with
  | none => exact ⟨_, rfl, hdraft fun v => by simp [htext]⟩
  | some text =>
    dsimp only
    cases hread : Json.read text with
    | none => exact absurd hread (h text htext)
    | some v =>
      by_cases hv : v = .null
      · subst hv
        refine ⟨_, rfl, hdraft fun u => ?_⟩
        simp only [htext, decodes_searchPath, Option.some.injEq, exists_eq_left', hread]
        exact ⟨nofun, fun ⟨hu, hne⟩ => absurd hu.symm hne⟩
      · split
        · rename_i heq
          cases heq
        · rename_i heq
          cases heq
          exact absurd rfl hv
        · rename_i heq
          cases heq
          refine ⟨_, rfl, hdraft fun u => ?_⟩
          simp only [htext, decodes_searchPath]
          simp only [Option.some.injEq, exists_eq_left', hread]
          exact ⟨fun e => ⟨e, e ▸ hv⟩, And.left⟩

/-- A value is another one, or both are objects. -/
def Covers (v u : Value) : Prop :=
  v = u ∨ (∃ entries, v = .object entries) ∧ ∃ entries, u = .object entries

theorem covers_layOver (lower upper : Value) : Covers (lower.layOver upper) upper := by
  cases lower <;> cases upper <;> simp [Covers, Value.layOver]

theorem Covers.trans {u v w : Value} (h : Covers w v) (h' : Covers v u) : Covers w u := by
  obtain rfl | ⟨hw, hv⟩ := h
  · exact h'
  · obtain rfl | ⟨-, hu⟩ := h'
    · exact .inr ⟨hw, hv⟩
    · exact .inr ⟨hw, hu⟩

namespace Draft

variable {higher lower : Draft} {f : Field}

theorem over_of_none (lower : Draft) (h : higher f = none) :
    (higher.over lower) f = lower f := by
  simp [Draft.over, h]

theorem over_of_some (lower : Draft) {u : Value} (h : higher f = some u) :
    ∃ v, (higher.over lower) f = some v ∧ Covers v u := by
  unfold Draft.over
  rw [h]
  cases lower f with
  | none => exact ⟨u, rfl, .inl rfl⟩
  | some l => exact ⟨_, rfl, covers_layOver l u⟩

/-- What the drafts of all sources give together. -/
def merged (values : Source → Draft) : Draft :=
  ((values .given).over (values (.texts .environment))).over (values (.texts .envFile))

end Draft

/-- The drafts hold what each source gives. -/
def Sources.Holds (s : Sources) (values : Source → Draft) : Prop :=
  ∀ source f v, values source f = some v ↔ s.Gives source f v

namespace Sources

variable {s : Sources}

theorem unreadable_iff {o : Origin} : s.Unreadable o ↔
    ∃ text, textFor (s.variables o) .searchPath = some text ∧ Json.read text = none :=
  exists_congr fun _ => and_congr_left fun _ => lastNamed_some_iff

theorem draft_of_unreadable_environment (h : s.Unreadable .environment) :
    s.draft = .error (.unreadable .environment) := by
  obtain ⟨text, htext, hread⟩ := unreadable_iff.mp h
  have herror := textDraft_of_unreadable (o := .environment) htext hread
  unfold draft
  rw [show environmentVariables s.environment = s.variables .environment from rfl, herror]
  rfl

theorem textDraft_variables {o : Origin} (h : ¬ s.Unreadable o) :
    ∃ d, textDraft o (s.variables o) = .ok d ∧ ∀ f v, d f = some v ↔ s.Gives (.texts o) f v := by
  simp only [gives_texts_iff]
  exact textDraft_of_readable fun text htext hread => h (unreadable_iff.mpr ⟨text, htext, hread⟩)

theorem draft_of_unreadable_envFile (henvironment : ¬ s.Unreadable .environment)
    (h : s.Unreadable .envFile) : s.draft = .error (.unreadable .envFile) := by
  obtain ⟨text, htext, hread⟩ := unreadable_iff.mp h
  obtain ⟨d, hd, -⟩ := textDraft_variables henvironment
  have herror := textDraft_of_unreadable (o := .envFile) htext hread
  unfold draft
  rw [show environmentVariables s.environment = s.variables .environment from rfl, hd,
    show EnvFile.read _ _ = s.variables .envFile from rfl, herror]
  rfl

/-- Where each source can be read, the draft is made of what the sources give. -/
theorem draft_of_readable (h : ∀ o, ¬ s.Unreadable o) :
    ∃ values, s.Holds values ∧ s.draft = .ok (Draft.merged values) := by
  obtain ⟨environment, henvironment, hgives⟩ := textDraft_variables (h .environment)
  obtain ⟨file, hfile, hgives'⟩ := textDraft_variables (h .envFile)
  refine ⟨fun
    | .given => givenDraft s.given
    | .texts .environment => environment
    | .texts .envFile => file, ?_, ?_⟩
  · rintro (_ | _ | _) f v
    · exact gives_given_iff.symm
    · exact hgives f v
    · exact hgives' f v
  · unfold draft
    rw [show environmentVariables s.environment = s.variables .environment from rfl, henvironment,
      show EnvFile.read _ _ = s.variables .envFile from rfl, hfile]
    rfl

/-- Field by field the draft has nothing and no source has, or it has the value of the highest
source that has one. -/
theorem Holds.merged_cases {values : Source → Draft} (h : s.Holds values) (f : Field) :
    (Draft.merged values f = none ∧ ∀ source v, ¬ s.Gives source f v) ∨
      ∃ source u v, s.Highest source f u ∧ Draft.merged values f = some v ∧ Covers v u := by
  have hnone {source : Source} (hsource : values source f = none) (v : Value) :
      ¬ s.Gives source f v := fun hv => by cases hsource.symm.trans ((h source f v).mpr hv)
  unfold Draft.merged
  cases hgiven : values .given f with
  | some u =>
    obtain ⟨v, hv, hcovers⟩ := Draft.over_of_some (values (.texts .environment)) hgiven
    obtain ⟨w, hw, hcovers'⟩ := Draft.over_of_some (values (.texts .envFile)) hv
    exact .inr ⟨.given, u, w, ⟨(h _ _ _).mp hgiven, nofun⟩, hw, hcovers'.trans hcovers⟩
  | none =>
    have habove := Draft.over_of_none (values (.texts .environment)) hgiven
    cases henvironment : values (.texts .environment) f with
    | some u =>
      obtain ⟨v, hv, hcovers⟩ :=
        Draft.over_of_some (values (.texts .envFile)) (habove.trans henvironment)
      refine .inr ⟨.texts .environment, u, v, ⟨(h _ _ _).mp henvironment, ?_⟩, hv, hcovers⟩
      rintro (_ | _ | _) w hlt
      · exact hnone hgiven w
      · exact absurd hlt (by decide)
      · exact absurd hlt (by decide)
    | none =>
      have hboth := habove.trans henvironment
      have hlowest := Draft.over_of_none (values (.texts .envFile)) hboth
      cases hfile : values (.texts .envFile) f with
      | some u =>
        refine .inr ⟨.texts .envFile, u, u, ⟨(h _ _ _).mp hfile, ?_⟩, hlowest.trans hfile, .inl rfl⟩
        rintro (_ | _ | _) w hlt
        · exact hnone hgiven w
        · exact hnone henvironment w
        · exact absurd hlt (by decide)
      | none =>
        refine .inl ⟨hlowest.trans hfile, ?_⟩
        rintro (_ | _ | _) v
        · exact hnone hgiven v
        · exact hnone henvironment v
        · exact hnone hfile v

/-- Every field has a value that wins, and the draft has it, if it has any. -/
theorem Holds.wins {values : Source → Draft} (h : s.Holds values) (f : Field) :
    ∃ u, s.Wins f u ∧ match Draft.merged values f with
      | none => u = ({} : Settings).get f
      | some v => Covers v u := by
  obtain ⟨hmerged, hgives⟩ | ⟨source, u, v, hu, hmerged, hcovers⟩ := h.merged_cases f
  · rw [hmerged]
    exact ⟨_, .default hgives, rfl⟩
  · rw [hmerged]
    exact ⟨u, .source hu, hcovers⟩

theorem ofSources_of_error {e : SettingsError} (h : s.draft = .error e) :
    ofSources s = .error e := by
  unfold ofSources
  rw [h]
  rfl

theorem ofSources_of_draft {d : Draft} (h : s.draft = .ok d) :
    ofSources s = match d.problems with
      | [] => .ok d.settings
      | problems => .error (.invalid problems) := by
  unfold ofSources
  rw [h]
  rfl

/-- Settings are made of sources that can be read. -/
theorem readable_of_ofSources {settings : Settings} (h : ofSources s = .ok settings) (o : Origin) :
    ¬ s.Unreadable o := by
  have hdraft {e : SettingsError} (he : s.draft = .error e) : False := by
    cases h.symm.trans (ofSources_of_error he)
  have henvironment : ¬ s.Unreadable .environment := fun hunreadable =>
    hdraft (draft_of_unreadable_environment hunreadable)
  cases o with
  | environment => exact henvironment
  | envFile =>
    exact fun hunreadable => hdraft (draft_of_unreadable_envFile henvironment hunreadable)

end Sources

end GrammarLoader.Settings
