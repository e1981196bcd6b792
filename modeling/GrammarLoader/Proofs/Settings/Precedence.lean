import GrammarLoader.Proofs.EnvFile.Literal
import GrammarLoader.Proofs.Settings.Winning
import Mathlib.Logic.Relation

/-!
# Precedence among the sources

Settings that are made have in each field the value of the highest source that gives one, or the
default, and the fields that are given explicitly are those to which some source gives a value. So
nothing changes when a source gives another value that a higher one hides, or when a source gets an
entry whose name is that of no field.
-/

namespace GrammarLoader.Settings

/-! ## Values that are hidden -/

/-- A higher source than one of texts gives a field a value. -/
def Sources.Hides (s : Sources) (o : Origin) (f : Field) : Prop :=
  ∃ higher v, higher.rank < (Source.texts o).rank ∧ s.Gives higher f v

/-- The texts for a field are the same among some variables and others. -/
def SameText (f : Field) (vars vars' : EnvFile.Variables) : Prop :=
  ∀ text, LastNamed f vars (some text) ↔ LastNamed f vars' (some text)

/-- The text for a field among variables can be decoded, if there is one. -/
def Decodable (f : Field) (vars : EnvFile.Variables) : Prop :=
  ∀ text, LastNamed f vars (some text) → f = .searchPath → Json.read text ≠ none

/-- Other sources give the same values, but for some that a higher source hides, and all that they
give can be decoded. -/
structure Sources.HidesChange (s t : Sources) : Prop where
  given : ∀ f v, t.Gives .given f v ↔ s.Gives .given f v
  texts : ∀ o f, SameText f (t.variables o) (s.variables o) ∨
    s.Hides o f ∧ Decodable f (t.variables o)

theorem SameText.of_textFor_eq {f : Field} {vars vars' : EnvFile.Variables}
    (h : textFor vars f = textFor vars' f) : SameText f vars vars' := fun text => by
  rw [lastNamed_some_iff, lastNamed_some_iff, h]

theorem Covers.eq_of_ne_object {v u : Value} (h : Covers v u)
    (hne : (∀ entries, v ≠ .object entries) ∨ ∀ entries, u ≠ .object entries) : v = u := by
  obtain heq | ⟨⟨entries, hv⟩, ⟨entries', hu⟩⟩ := h
  · exact heq
  · obtain hne | hne := hne
    · exact absurd hv (hne entries)
    · exact absurd hu (hne entries')

/-- No field holds an object. -/
theorem ne_object_of_problems {f : Field} {v : Value} (h : problems f (normalised f v) = [])
    (entries : Entries) : v ≠ .object entries := by
  rintro rfl
  cases f <;> cases h

namespace Sources

variable {s t : Sources} {settings : Settings}

/-- Settings are those of a draft without problems, which holds what the sources give. -/
theorem draft_of_ofSources (h : ofSources s = .ok settings) :
    ∃ values, s.Holds values ∧ s.draft = .ok (Draft.merged values) ∧
      (Draft.merged values).problems = [] ∧ settings = (Draft.merged values).settings := by
  obtain ⟨values, hvalues, hdraft⟩ := draft_of_readable (readable_of_ofSources h)
  rw [ofSources_of_draft hdraft] at h
  split at h
  · rename_i hproblems
    cases h
    exact ⟨values, hvalues, hdraft, hproblems, rfl⟩
  · cases h

theorem problems_of_merged {values : Source → Draft}
    (h : (Draft.merged values).problems = []) {f : Field} {v : Value}
    (hv : Draft.merged values f = some v) : problems f (normalised f v) = [] := by
  have hf := List.flatMap_eq_nil_iff.mp h f (Field.mem_all f)
  rw [hv] at hf
  exact hf

theorem normalised_default (f : Field) :
    normalised f (({} : Settings).get f) = ({} : Settings).get f := by
  cases f with
  | logLevel =>
    have hupper : Text.upper "INFO" = "INFO" := by decide +kernel
    exact congrArg Value.str hupper
  | library | searchPath | logFormat => rfl

/-- Each field has the value that wins. -/
theorem get_of_ofSources (h : ofSources s = .ok settings) (f : Field) :
    ∃ v, s.Wins f v ∧ settings.get f = normalised f v := by
  obtain ⟨values, hvalues, -, hproblems, rfl⟩ := draft_of_ofSources h
  obtain ⟨u, hwins, hmerged⟩ := hvalues.wins f
  refine ⟨u, hwins, ?_⟩
  rw [Draft.get_settings]
  cases hv : Draft.merged values f with
  | none =>
    rw [hv] at hmerged
    rw [hmerged, normalised_default]
  | some v =>
    rw [hv] at hmerged
    have hobject := ne_object_of_problems (problems_of_merged hproblems hv)
    rw [← hmerged.eq_of_ne_object (.inl hobject)]

theorem mem_explicit_iff (h : ofSources s = .ok settings) (f : Field) :
    f ∈ settings.explicit ↔ ∃ source v, s.Gives source f v := by
  obtain ⟨values, hvalues, -, hproblems, rfl⟩ := draft_of_ofSources h
  have hmem : f ∈ (Draft.merged values).settings.explicit ↔
      (Draft.merged values f).isSome := by
    simp [Draft.settings, Field.mem_all]
  rw [hmem]
  obtain ⟨hmerged, hgives⟩ | ⟨source, u, v, hu, hmerged, -⟩ := hvalues.merged_cases f
  · simp [hmerged, hgives]
  · simp only [hmerged, Option.isSome_some, true_iff]
    exact ⟨source, u, hu.gives⟩

theorem nodup_explicit (h : ofSources s = .ok settings) : settings.explicit.Nodup := by
  obtain ⟨values, -, -, -, rfl⟩ := draft_of_ofSources h
  exact (List.filter_sublist ..).nodup (by decide)

/-- A source that nothing hides gives the same value. -/
theorem HidesChange.gives_iff (h : s.HidesChange t) {source : Source} {f : Field}
    (hhighest : ∀ higher w, higher.rank < source.rank → ¬ s.Gives higher f w) (v : Value) :
    t.Gives source f v ↔ s.Gives source f v := by
  cases source with
  | given => exact h.given f v
  | texts o =>
    obtain hsame | ⟨⟨higher, w, hlt, hw⟩, -⟩ := h.texts o f
    · rw [gives_texts_iff, gives_texts_iff]
      refine exists_congr fun text => and_congr_left fun _ => ?_
      rw [← lastNamed_some_iff, ← lastNamed_some_iff, hsame text]
    · exact absurd hw (hhighest higher w hlt)

theorem HidesChange.readable (hchange : s.HidesChange t) (h : ∀ o, ¬ s.Unreadable o) (o : Origin) :
    ¬ t.Unreadable o := by
  rintro ⟨text, htext, hread⟩
  obtain hsame | ⟨-, hdecodable⟩ := hchange.texts o .searchPath
  · exact h o ⟨text, (hsame text).mp htext, hread⟩
  · exact hdecodable text htext rfl hread

/-- The highest source of a field stays so, with its value. -/
theorem HidesChange.highest (hchange : s.HidesChange t) {source : Source} {f : Field} {v : Value}
    (h : s.Highest source f v) : t.Highest source f v where
  gives := (hchange.gives_iff h.highest v).mpr h.gives
  highest higher u hlt hu := by
    refine h.highest higher u hlt ((hchange.gives_iff (fun _ _ hlt' => ?_) u).mp hu)
    exact h.highest _ _ (Nat.lt_trans hlt' hlt)

theorem HidesChange.merged_eq (hchange : s.HidesChange t) {values values' : Source → Draft}
    (hvalues : s.Holds values) (hvalues' : t.Holds values')
    (hproblems : (Draft.merged values).problems = []) :
    Draft.merged values' = Draft.merged values := by
  funext f
  obtain ⟨hmerged, hgives⟩ | ⟨source, u, v, hu, hmerged, hcovers⟩ := hvalues.merged_cases f
  · -- no source gives the field a value, so none hides anything
    obtain ⟨hmerged', -⟩ | ⟨source, u, -, hu, -⟩ := hvalues'.merged_cases f
    · rw [hmerged, hmerged']
    · have hu' := (hchange.gives_iff (fun _ _ _ => hgives _ _) u).mp hu.gives
      exact absurd hu' (hgives source u)
  · have hobject := ne_object_of_problems (problems_of_merged hproblems hmerged)
    obtain rfl := hcovers.eq_of_ne_object (.inl hobject)
    have hu' := hchange.highest hu
    obtain ⟨-, hgives⟩ | ⟨source', u', v', hsource', hmerged', hcovers'⟩ :=
      hvalues'.merged_cases f
    · exact absurd hu'.gives (hgives _ _)
    · obtain rfl := hu'.unique hsource'
      rw [hmerged, hmerged', hcovers'.eq_of_ne_object (.inr hobject)]

/-- Changes that are hidden keep the settings. -/
theorem HidesChange.ofSources_eq (hchange : s.HidesChange t) (h : ofSources s = .ok settings) :
    ofSources t = .ok settings := by
  obtain ⟨values, hvalues, hdraft, hproblems, rfl⟩ := draft_of_ofSources h
  obtain ⟨values', hvalues', hdraft'⟩ :=
    draft_of_readable (hchange.readable (readable_of_ofSources h))
  rw [hchange.merged_eq hvalues hvalues' hproblems] at hdraft'
  rw [ofSources_of_draft hdraft', hproblems]

end Sources

/-! ## Entries that name no field -/

/-- The name is that of no field. -/
def NamesNoField (name : String) : Prop := ∀ f : Field, f.isNamed name = false

theorem filter_of_namesNoField {α : Type} {before after : List (String × α)} {name : String}
    (h : NamesNoField name) (value : α) (f : Field) :
    (before ++ (name, value) :: after).filter (fun p => f.isNamed p.1) =
      (before ++ after).filter fun p => f.isNamed p.1 := by
  simp [h f]

theorem ofPairs_filter {α : Type} (pairs : List (String × α)) (f : Field) :
    (Assoc.ofPairs pairs).filter (fun p => f.isNamed p.1) =
      Assoc.ofPairs (pairs.filter fun p => f.isNamed p.1) :=
  Assoc.filter_insertAll f.isNamed [] pairs

theorem find?_reverse_congr {α : Type} {f : Field} {mapping mapping' : List (String × α)}
    (h : (mapping.filter fun p => f.isNamed p.1) = mapping'.filter fun p => f.isNamed p.1) :
    mapping.reverse.find? (fun p => f.isNamed p.1) =
      mapping'.reverse.find? fun p => f.isNamed p.1 := by
  rw [← List.head?_filter, ← List.head?_filter, List.filter_reverse, List.filter_reverse, h]

theorem textFor_filter_congr {f : Field} {vars vars' : EnvFile.Variables}
    (h : (vars.filter fun p => f.isNamed p.1) = vars'.filter fun p => f.isNamed p.1) :
    textFor vars f = textFor vars' f := by
  rw [textFor, textFor, find?_reverse_congr h]

theorem givenDraft_of_namesNoField {before after : List (String × Value)} {name : String}
    (h : NamesNoField name) (v : Value) (f : Field) :
    givenDraft (before ++ (name, v) :: after) f = givenDraft (before ++ after) f := by
  have hfilter : ((Assoc.ofPairs (before ++ (name, v) :: after)).filter fun p => f.isNamed p.1) =
      (Assoc.ofPairs (before ++ after)).filter fun p => f.isNamed p.1 := by
    rw [ofPairs_filter, ofPairs_filter, filter_of_namesNoField h]
  have hname : f.isNamed f.name := beq_self_eq_true _
  unfold givenDraft
  dsimp only
  rw [← Assoc.lookup_filter f.isNamed hname, hfilter, Assoc.lookup_filter f.isNamed hname,
    find?_reverse_congr hfilter]

theorem textFor_environment_of_namesNoField {before after : List (String × String)}
    {name : String} (h : NamesNoField name) (text : String) (f : Field) :
    textFor (environmentVariables (before ++ (name, text) :: after)) f =
      textFor (environmentVariables (before ++ after)) f := by
  apply textFor_filter_congr
  have hpicked (pairs : List (String × String)) :
      (environmentVariables pairs).filter (fun p => f.isNamed p.1) =
        (Assoc.ofPairs (pairs.filter fun p => f.isNamed p.1)).map fun p => (p.1, some p.2) := by
    rw [environmentVariables, List.filter_map, ← ofPairs_filter]
    rfl
  rw [hpicked, hpicked, filter_of_namesNoField h]

/-- Statements with names of no field leave the texts of the fields. -/
theorem textFor_foldl_define {environment : List (String × String)} {ss : List EnvFile.Statement}
    (h : ∀ s ∈ ss, NamesNoField (String.ofList s.1)) (earlier : EnvFile.Variables) (f : Field) :
    textFor (ss.foldl (EnvFile.define environment) earlier) f = textFor earlier f := by
  induction ss generalizing earlier with
  | nil => rfl
  | cons s ss ih =>
    obtain ⟨hs, hrest⟩ := List.forall_mem_cons.mp h
    rw [List.foldl_cons, ih hrest]
    apply textFor_filter_congr
    rw [EnvFile.define, Assoc.filter_insert, hs f]
    rfl

/-! ## Revisions -/

/-- Changes of the sources that the settings do not show: an entry for no field is added, on a line
of its own in a file, or a text that a higher source hides is replaced by another one that can be
decoded. Where a variable changes, no value of the file refers to it. -/
inductive Sources.Revision (s : Sources) : Sources → Prop
  | given {before after : List (String × Value)} {name : String} {v : Value}
    (hs : s.given = before ++ after) (hname : NamesNoField name) :
    Revision s { s with given := before ++ (name, v) :: after }
  | environment {before after : List (String × String)} {name text : String}
    (hs : s.environment = before ++ after) (hname : NamesNoField name)
    (hliteral : EnvFile.HasLiteralValues (s.envFile.getD "")) :
    Revision s { s with environment := before ++ (name, text) :: after }
  | lines {added : List Char} {file : String}
    (hadds : EnvFile.AddsLines added (EnvFile.content (s.envFile.getD "")) (EnvFile.content file))
    (hnames : ∀ st ∈ EnvFile.stated added, NamesNoField (String.ofList st.1)) :
    Revision s { s with envFile := some file }
  | environmentText {environment : List (String × String)} {f : Field}
    (hhidden : s.Hides .environment f)
    (hother : ∀ g ≠ f, SameText g (environmentVariables environment) (s.variables .environment))
    (hdecodable : Decodable f (environmentVariables environment))
    (hliteral : EnvFile.HasLiteralValues (s.envFile.getD "")) :
    Revision s { s with environment }
  | fileText {file : String} {f : Field} (hhidden : s.Hides .envFile f)
    (hother : ∀ g ≠ f, SameText g (EnvFile.read (Assoc.ofPairs s.environment) file)
      (s.variables .envFile))
    (hdecodable : Decodable f (EnvFile.read (Assoc.ofPairs s.environment) file)) :
    Revision s { s with envFile := some file }

namespace Sources

variable {s t : Sources} {settings : Settings}

theorem gives_given_congr (h : ∀ f, givenDraft t.given f = givenDraft s.given f) (f : Field)
    (v : Value) : t.Gives .given f v ↔ s.Gives .given f v := by
  rw [gives_given_iff, gives_given_iff, h]

theorem Revision.hidesChange (h : s.Revision t) : s.HidesChange t := by
  cases h with
  | given hs hname =>
    refine ⟨gives_given_congr fun f => ?_, fun o f => .inl fun _ => .rfl⟩
    rw [hs, givenDraft_of_namesNoField hname]
  | environment hs hname hliteral =>
    refine ⟨gives_given_congr fun _ => rfl, fun o f => .inl (.of_textFor_eq ?_)⟩
    cases o with
    | environment =>
      show textFor (environmentVariables _) f = textFor (environmentVariables s.environment) f
      rw [hs, textFor_environment_of_namesNoField hname]
    | envFile => exact congrArg (textFor · f) (EnvFile.read_congr hliteral _ _)
  | lines hadds hnames =>
    refine ⟨gives_given_congr fun _ => rfl, fun o f => .inl (.of_textFor_eq ?_)⟩
    cases o with
    | environment => rfl
    | envFile =>
      show textFor (EnvFile.read _ _) f = textFor (EnvFile.read _ _) f
      rw [EnvFile.read, EnvFile.statements_eq_stated, Option.getD_some, hadds.stated_eq,
        List.foldl_append, textFor_foldl_define hnames, ← EnvFile.statements_eq_stated]
      rfl
  | @environmentText environment f hhidden hother hdecodable hliteral =>
    refine ⟨gives_given_congr fun _ => rfl, fun o g => ?_⟩
    cases o with
    | environment =>
      by_cases hg : g = f
      · subst hg
        exact .inr ⟨hhidden, hdecodable⟩
      · exact .inl (hother g hg)
    | envFile =>
      exact .inl (.of_textFor_eq (congrArg (textFor · g) (EnvFile.read_congr hliteral _ _)))
  | @fileText file f hhidden hother hdecodable =>
    refine ⟨gives_given_congr fun _ => rfl, fun o g => ?_⟩
    cases o with
    | environment => exact .inl fun _ => .rfl
    | envFile =>
      by_cases hg : g = f
      · subst hg
        exact .inr ⟨hhidden, hdecodable⟩
      · exact .inl (hother g hg)

end Sources

/-- Settings that are made have the value of the highest source in each field, or the default; those
given explicitly are the fields to which some source gives a value; and no series of revisions
changes them. -/
theorem value_of_highest_source {s : Sources} {settings : Settings}
    (h : ofSources s = .ok settings) :
    (∀ f, ∃ v, s.Wins f v ∧ settings.get f = normalised f v) ∧
      (settings.explicit.Nodup ∧ ∀ f, f ∈ settings.explicit ↔ ∃ source v, s.Gives source f v) ∧
      ∀ t, Relation.ReflTransGen Sources.Revision s t → ofSources t = .ok settings := by
  refine ⟨Sources.get_of_ofSources h, ⟨Sources.nodup_explicit h, Sources.mem_explicit_iff h⟩, ?_⟩
  intro t ht
  induction ht with
  | refl => exact h
  | tail _ hrevision ih => exact hrevision.hidesChange.ofSources_eq ih

/-- The level of the environment gives way to a given one, and the file has a format without a
value. Neither a word that is no level nor one more line changes anything. -/
theorem value_of_highest_source_hidden :
    let given := [("LOG_LEVEL", .str "debug")]
    let path := ("tree_sitter_kpl_search_path", "[\x22/a\x22]")
    let file := "TREE_SITTER_KPL_LIBRARY=/kpl.so\nLOG_FORMAT"
    let s : Sources := ⟨given, [("Log_Level", "error"), path], some file⟩
    ofSources ⟨given, [("Log_Level", "loud"), path], some (file ++ "\nOTHER=1")⟩ = ofSources s ∧
      (ofSources s).toOption.map
        (fun settings => (Field.all.map (fun f => (settings.get f).shown), settings.explicit)) =
        some (["/kpl.so", "['/a']", "DEBUG", "console"], [.library, .searchPath, .logLevel]) := by
  intro given path file s
  have hshown : (ofSources s).toOption.map
      (fun settings => (Field.all.map (fun f => (settings.get f).shown), settings.explicit)) =
      some (["/kpl.so", "['/a']", "DEBUG", "console"], [.library, .searchPath, .logLevel]) := by
    decide +kernel
  refine ⟨?_, hshown⟩
  obtain ⟨settings, hs, -⟩ := Option.map_eq_some_iff.mp hshown
  replace hs : ofSources s = .ok settings := by
    cases hsources : ofSources s with
    | ok => rw [hsources] at hs; cases hs; rfl
    | error => rw [hsources] at hs; cases hs
  have hlevel : s.Revision ⟨given, [("Log_Level", "loud"), path], some file⟩ := by
    have hliteral : EnvFile.HasLiteralValues file := by
      refine EnvFile.hasLiteralValues_of_not_opens ?_
      rw [EnvFile.Opens]
      decide +kernel
    have hgiven : (Assoc.ofPairs given).lookup Field.logLevel.name = some (.str "debug") := rfl
    refine .environmentText ⟨.given, _, by decide, .named hgiven⟩ ?_ nofun hliteral
    intro g hg
    refine .of_textFor_eq ?_
    cases g with
    | logLevel => exact absurd rfl hg
    | library | searchPath | logFormat => decide +kernel
  have hline : EnvFile.AddsLines "OTHER=1".toList (EnvFile.content file)
      (EnvFile.content (file ++ "\nOTHER=1")) := by
    have hcontent : EnvFile.content (file ++ "\nOTHER=1") =
        EnvFile.content file ++ '\n' :: "OTHER=1".toList := by
      decide +kernel
    rw [hcontent]
    exact .behind (.inl rfl) (EnvFile.apart_of_unquoted (by decide) (by decide) _)
  have hname : ∀ st ∈ EnvFile.stated "OTHER=1".toList, NamesNoField (String.ofList st.1) := by
    have hstated : EnvFile.stated "OTHER=1".toList = [("OTHER".toList, some ['1'])] := by
      decide +kernel
    rw [hstated, List.forall_mem_singleton]
    intro f
    cases f <;> decide +kernel
  obtain ⟨-, -, hrevised⟩ := value_of_highest_source hs
  rw [hs]
  exact hrevised _ (.tail (.single hlevel) (.lines hline hname))

/-- A given name counts also where it differs from a field's in case, a search path of null hides no
lower one, and a quote that is left open takes in the line that is added. -/
theorem value_not_of_highest_source :
    let shown (s : Sources) := (ofSources s).toOption.map fun settings =>
      (Field.all.map fun f => (settings.get f).shown, settings.explicit)
    let path := "TREE_SITTER_KPL_SEARCH_PATH"
    let file := "TREE_SITTER_KPL_LIBRARY='a"
    (Field.named? "log_level" = none ∧ shown ⟨[("log_level", .str "debug")], [], none⟩ =
      some (["None", "[]", "DEBUG", "console"], [.logLevel])) ∧
    ((Json.read "null").map Value.shown = some "None" ∧
      shown ⟨[], [(path, "null")], some (path ++ "=[\x22/a\x22]")⟩ =
        some (["None", "['/a']", "INFO", "console"], [.searchPath])) ∧
    EnvFile.statements "B='#'" = [(['B'], some ['#'])] ∧
      shown ⟨[], [], some file⟩ = some (["None", "[]", "INFO", "console"], []) ∧
      shown ⟨[], [], some (file ++ "\nB='#'")⟩ =
        some (["a\nB=", "[]", "INFO", "console"], [.library]) := by
  decide +kernel

end GrammarLoader.Settings
