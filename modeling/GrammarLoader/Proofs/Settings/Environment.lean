import GrammarLoader.Proofs.Json.RoundTrip
import GrammarLoader.Proofs.Settings.Valid

/-!
# Settings through the environment

A configuration that is written to variables of the environment is read from them again. The names
of the variables and that of the level may be in any case; the search path is the text of a list,
the characters beyond printable ASCII kept or escaped; any other variables may stand around. Of the
variables those whose names differ from a field's in case only count for the field, so each field
has exactly one.
-/

namespace GrammarLoader

/-- A text of characters of ASCII only. -/
def IsAscii (t : String) : Prop := ∀ d ∈ t.toList, d.toNat < 128

instance (t : String) : Decidable (IsAscii t) := List.decidableBAll ..

/-- The first text is the second one with each letter of ASCII in either case. -/
def SameCase (s t : String) : Prop :=
  List.Forall₂ (fun c d => c = d.toLower ∨ c = d.toUpper) s.toList t.toList

instance (s t : String) : Decidable (SameCase s t) := inferInstanceAs (Decidable (List.Forall₂ ..))

namespace SameCase

variable {s t : String}

theorem casing_of_lt {c d : Char} (hd : d.toNat < 128) (hc : c = d.toLower ∨ c = d.toUpper) :
    c.toNat < 128 ∧ c.toUpper = d.toUpper ∧ Field.lowerChar c = Field.lowerChar d := by
  have hall : ∀ n < 128, ∀ upper : Bool,
      let d := Char.ofNat n
      let c := if upper then d.toUpper else d.toLower
      c.toNat < 128 ∧ c.toUpper = d.toUpper ∧ Field.lowerChar c = Field.lowerChar d := by
    decide +kernel
  have hcasing := hall d.toNat hd
  rw [Char.ofNat_toNat] at hcasing
  obtain rfl | rfl := hc
  · exact hcasing false
  · exact hcasing true

theorem upper_eq (h : SameCase s t) (ht : IsAscii t) :
    Text.upper s = String.ofList (t.toList.map Char.toUpper) := by
  unfold Text.upper
  congr 1
  unfold SameCase at h
  unfold IsAscii at ht
  generalize s.toList = cs, t.toList = ds at h ht
  induction h with
  | nil => rfl
  | @cons c d _ _ hc _ ih =>
    obtain ⟨hd, hrest⟩ := List.forall_mem_cons.mp ht
    obtain ⟨hlt, hupper, -⟩ := casing_of_lt hd hc
    rw [List.flatMap_cons, ih hrest, Text.upperChar, if_pos hlt, hupper]
    rfl

theorem map_lowerChar_eq (h : SameCase s t) (ht : IsAscii t) :
    s.toList.map Field.lowerChar = t.toList.map Field.lowerChar := by
  unfold SameCase at h
  unfold IsAscii at ht
  generalize s.toList = cs, t.toList = ds at h ht
  induction h with
  | nil => rfl
  | @cons c d _ _ hc _ ih =>
    obtain ⟨hd, hrest⟩ := List.forall_mem_cons.mp ht
    obtain ⟨-, -, hlower⟩ := casing_of_lt hd hc
    rw [List.map_cons, List.map_cons, hlower, ih hrest]

end SameCase

/-- A name in whatever case is that of its field, and of no other one. -/
theorem Field.isNamed_of_sameCase {name : String} {g : Field} (h : SameCase name g.name)
    (f : Field) : f.isNamed name = decide (f = g) := by
  have hascii : IsAscii g.name := by cases g <;> decide
  rw [isNamed, h.map_lowerChar_eq hascii]
  cases f <;> cases g <;> decide

namespace Settings

section Reading

/-! ## Variables of an environment -/

variable {env : List (String × String)} {f : Field}

theorem textFor_of_not_isNamed (h : ∀ p ∈ env, f.isNamed p.1 = false) :
    textFor (environmentVariables env) f = none := by
  have hnone : (environmentVariables env).reverse.find? (fun p => f.isNamed p.1) = none := by
    rw [List.find?_eq_none]
    simp only [environmentVariables, List.mem_reverse, List.forall_mem_map]
    intro p hp
    have henv : p ∈ env := (Assoc.mem_of_mem_insertAll hp).resolve_left nofun
    simp [h p henv]
  rw [textFor, hnone]
  rfl

/-- Where all variables for a field agree, that is its text. -/
theorem textFor_of_isNamed {text : String} (h : ∀ p ∈ env, f.isNamed p.1 → p.2 = text)
    {name : String} (hname : name ∈ env.map Prod.fst) (hf : f.isNamed name) :
    textFor (environmentVariables env) f = some text := by
  cases hfind : (environmentVariables env).reverse.find? (fun p => f.isNamed p.1) with
  | none =>
    rw [List.find?_eq_none] at hfind
    have hkey : name ∈ (Assoc.ofPairs env).map Prod.fst := Assoc.mem_keys_insertAll (.inr hname)
    obtain ⟨p, hp, rfl⟩ := List.mem_map.mp hkey
    exact absurd hf (hfind (p.1, some p.2) (List.mem_reverse.mpr (List.mem_map_of_mem hp)))
  | some p =>
    have hnamed := List.find?_some hfind
    have hp := List.mem_reverse.mp (List.mem_of_find?_eq_some hfind)
    obtain ⟨q, hq, rfl⟩ := List.mem_map.mp hp
    have henv : q ∈ env := (Assoc.mem_of_mem_insertAll hq).resolve_left nofun
    rw [textFor, hfind]
    exact congrArg some (h q henv hnamed)

/-- A field has the text that the variables for it agree on, and none if there is no variable for
it. -/
theorem textFor_of_agree {text : Option String} (hown : ∀ p ∈ env, f.isNamed p.1 → text = some p.2)
    (hthere : text.isSome → ∃ p ∈ env, f.isNamed p.1) :
    textFor (environmentVariables env) f = text := by
  cases text with
  | none =>
    refine textFor_of_not_isNamed fun p hp => ?_
    rw [Bool.eq_false_iff]
    intro hf
    cases hown p hp hf
  | some text =>
    obtain ⟨p, hp, hf⟩ := hthere rfl
    have hagree : ∀ q ∈ env, f.isNamed q.1 → q.2 = text := fun q hq hq' =>
      (Option.some.inj (hown q hq hq')).symm
    exact textFor_of_isNamed hagree (List.mem_map_of_mem hp) hf

theorem textDraft_nil (origin : Origin) : textDraft origin [] = .ok fun _ => none := by
  show Except.ok _ = Except.ok _
  congr 1
  funext f
  exact ite_self _

theorem Draft.over_none (d : Draft) : d.over (fun _ => none) = d := by
  funext f
  cases hd : d f <;> simp [Draft.over, hd]

theorem Draft.none_over (d : Draft) : Draft.over (fun _ => none) d = d := by
  funext f
  rfl

/-- With nothing given and no file the environment says it all. -/
theorem draft_of_environment (env : List (String × String)) :
    Sources.draft ⟨[], env, none⟩ = textDraft .environment (environmentVariables env) := by
  have hfile : EnvFile.read (Assoc.ofPairs env) "" = [] := rfl
  have hgiven : givenDraft [] = fun _ => none := rfl
  unfold Sources.draft
  cases textDraft .environment (environmentVariables env) with
  | error e => rfl
  | ok draft =>
    simp only [bind, Except.bind, Option.getD_none, hfile, textDraft_nil, hgiven, Draft.none_over,
      Draft.over_none]
    rfl

/-- With nothing given and no variables around the file says it all. -/
theorem draft_of_envFile (text : String) :
    Sources.draft ⟨[], [], some text⟩ = textDraft .envFile (EnvFile.read [] text) := by
  have henvironment : environmentVariables [] = [] := rfl
  have haround : Assoc.ofPairs ([] : List (String × String)) = [] := rfl
  have hgiven : givenDraft [] = fun _ => none := rfl
  unfold Sources.draft
  simp only [bind, Except.bind, Option.getD_some, henvironment, haround, textDraft_nil, hgiven,
    Draft.none_over]
  cases textDraft .envFile (EnvFile.read [] text) <;> rfl

end Reading

/-! ## A configuration and its variables -/

/-- What the settings are to be. -/
structure Configuration where
  library : Option String
  searchPath : List String
  level : String
  format : String
  level_mem : level ∈ levelNames
  format_mem : format ∈ formatNames

/-- The settings of a configuration. The library is given explicitly if there is one. -/
def Configuration.settings (c : Configuration) : Settings where
  library := (c.library.map .str).getD .null
  searchPath := .list (c.searchPath.map .str)
  logLevel := .str c.level
  logFormat := .str c.format
  explicit := if c.library.isSome then Field.all else [.searchPath, .logLevel, .logFormat]

/-- How a configuration is written: the names of the variables and that of the level in whatever
case, and the characters of the search path that are not escaped. -/
structure Spelling (c : Configuration) where
  name : Field → String
  level : String
  keep : Char → Bool
  name_case : ∀ f, SameCase (name f) f.name
  level_case : SameCase level c.level

namespace Spelling

variable {c : Configuration}

/-- The texts of the fields. There is none for a library of null. -/
def text (sp : Spelling c) : Field → Option String
  | .library => c.library
  | .searchPath =>
    some (String.ofList ('[' :: Json.joined (c.searchPath.map (Json.spelled sp.keep)) ++ [']']))
  | .logLevel => some sp.level
  | .logFormat => some c.format

/-- The variables, one for each field that has a text. -/
def written (sp : Spelling c) : List (String × String) :=
  Field.all.filterMap fun f => (sp.text f).map (sp.name f, ·)

theorem mem_written (sp : Spelling c) {p : String × String} :
    p ∈ sp.written ↔ ∃ f text, sp.text f = some text ∧ p = (sp.name f, text) := by
  simp only [written, List.mem_filterMap, Field.mem_all, true_and, Option.map_eq_some_iff]
  constructor
  · rintro ⟨f, text, htext, rfl⟩
    exact ⟨f, text, htext, rfl⟩
  · rintro ⟨f, text, htext, rfl⟩
    exact ⟨f, text, htext, rfl⟩

/-- Among the variables, in any order and with others around, a field has its text. -/
theorem textFor_eq (sp : Spelling c) {env further : List (String × String)}
    (hfurther : ∀ p ∈ further, ∀ f : Field, f.isNamed p.1 = false)
    (henv : env.Perm (sp.written ++ further)) (f : Field) :
    textFor (environmentVariables env) f = sp.text f := by
  apply textFor_of_agree
  · -- a variable for the field is the one that is written for it
    intro p hp hf
    obtain hvar | hother := List.mem_append.mp (henv.mem_iff.mp hp)
    · obtain ⟨g, text, htext, rfl⟩ := sp.mem_written.mp hvar
      rw [Field.isNamed_of_sameCase (sp.name_case g), decide_eq_true_eq] at hf
      rwa [hf]
    · rw [hfurther p hother f] at hf
      cases hf
  · intro hsome
    obtain ⟨text, htext⟩ := Option.isSome_iff_exists.mp hsome
    have hmem : (sp.name f, text) ∈ sp.written := sp.mem_written.mpr ⟨f, text, htext, rfl⟩
    refine ⟨_, henv.mem_iff.mpr (List.mem_append_left _ hmem), ?_⟩
    rw [Field.isNamed_of_sameCase (sp.name_case f)]
    exact decide_eq_true rfl

theorem read_searchPath (sp : Spelling c) {text : String} (h : sp.text .searchPath = some text) :
    Json.read text = some (.list (c.searchPath.map .str)) := by
  obtain rfl := Option.some.inj h
  have hitems : List.Forall₂ Json.Writes (c.searchPath.map (Json.spelled sp.keep))
      (c.searchPath.map .str) := by
    rw [List.forall₂_map_left_iff, List.forall₂_map_right_iff, List.forall₂_same]
    exact fun text _ => Json.writes_spelled sp.keep text
  have hblanks : ∀ c ∈ ([] : List Char), Json.isSpace c := nofun
  have hparse := (Json.writes_list hitems).parse_append hblanks
  rw [List.append_nil] at hparse
  rw [Json.read, String.toList_ofList, hparse]

theorem upper_level (sp : Spelling c) : Text.upper sp.level = c.level := by
  have hplain : ∀ level ∈ levelNames, IsAscii level ∧
      String.ofList (level.toList.map Char.toUpper) = level := by decide +kernel
  obtain ⟨hascii, hupper⟩ := hplain c.level c.level_mem
  rw [sp.level_case.upper_eq hascii, hupper]

/-- What the variables give. -/
def draft (sp : Spelling c) : Draft := fun f =>
  if f = .searchPath then some (.list (c.searchPath.map .str)) else (sp.text f).map .str

theorem textDraft_eq (sp : Spelling c) {vars : EnvFile.Variables} (origin : Origin)
    (h : ∀ f, textFor vars f = sp.text f) : textDraft origin vars = .ok sp.draft := by
  have hread := sp.read_searchPath rfl
  unfold textDraft
  simp only [h]
  rw [show sp.text .searchPath = some _ from rfl]
  dsimp only
  rw [hread]
  rfl

/-- Nothing is wrong with the values that the variables give. -/
theorem problems_draft (sp : Spelling c) : sp.draft.problems = [] := by
  have hitems : ∀ (texts : List String) (index : Nat),
      itemProblems index (texts.map .str) = [] := by
    intro texts
    induction texts with
    | nil => exact fun _ => rfl
    | cons text rest ih => exact fun index => ih (index + 1)
  have hname {f : Field} {problem : Problem} {names : List String} {name : String}
      (h : name ∈ names) : nameProblems f problem names (.str name) = [] :=
    if_pos (List.contains_iff_mem.mpr h)
  rw [Draft.problems, List.flatMap_eq_nil_iff]
  intro f _
  cases f with
  | library => cases hl : c.library <;> simp [draft, text, hl, normalised, problems]
  | searchPath => exact hitems c.searchPath 0
  | logLevel =>
    show nameProblems .logLevel .notLevel levelNames (.str (Text.upper sp.level)) = []
    rw [sp.upper_level]
    exact hname c.level_mem
  | logFormat => exact hname c.format_mem

theorem settings_draft (sp : Spelling c) : sp.draft.settings = c.settings := by
  cases hl : c.library <;>
    simp [Draft.settings, Configuration.settings, Field.all, draft, text, put, hl, normalised,
      sp.upper_level]

end Spelling

/-- A configuration that is written to the environment, with whatever other variables around, comes
back from it. -/
theorem configuration_of_environment (c : Configuration) (sp : Spelling c)
    {env further : List (String × String)}
    (hfurther : ∀ p ∈ further, ∀ f : Field, f.isNamed p.1 = false)
    (henv : env.Perm (sp.written ++ further)) :
    ofSources ⟨[], env, none⟩ = .ok c.settings := by
  unfold ofSources
  rw [draft_of_environment, sp.textDraft_eq .environment (sp.textFor_eq hfurther henv)]
  simp only [bind, Except.bind, sp.problems_draft]
  exact congrArg Except.ok sp.settings_draft

/-- A library that looks like a list, a search path with quotes, a line end and characters beyond
ASCII, variables in mixed case and in another order among others. -/
theorem configuration_of_environment_mixed :
    let c : Configuration :=
      { library := some "[\x22kpl.so\x22]", searchPath := ["", "a \x22b\x22\n", "é😀"]
        level := "WARNING", format := "json", level_mem := by decide, format_mem := by decide }
    let path := "[\x22\x22, \x22a \\\x22b\\\x22\\n\x22, \x22é\\ud83d\\ude00\x22]"
    let env := [("PATH", "/bin"), ("log_format", "json"), ("LOG_LEVELS", "ERROR"),
      ("Log_Level", "wArning"), ("TREE_SITTER_KPL_SEARCH_PATH", path),
      ("tree_sitter_kpl_Library", "[\x22kpl.so\x22]")]
    ofSources ⟨[], env, none⟩ = .ok c.settings := by
  intro c path env
  let name : Field → String
    | .library => "tree_sitter_kpl_Library"
    | .searchPath => "TREE_SITTER_KPL_SEARCH_PATH"
    | .logLevel => "Log_Level"
    | .logFormat => "log_format"
  let sp : Spelling c :=
    { name, level := "wArning", keep := (· == 'é')
      name_case := by intro f; cases f <;> decide +kernel
      level_case := by decide +kernel }
  have hfurther : ∀ p ∈ [("PATH", "/bin"), ("LOG_LEVELS", "ERROR")],
      ∀ f : Field, f.isNamed p.1 = false := by
    simp only [List.forall_mem_cons]
    refine ⟨fun f => ?_, fun f => ?_, by simp⟩ <;> cases f <;> decide +kernel
  have henv : env.Perm (sp.written ++ [("PATH", "/bin"), ("LOG_LEVELS", "ERROR")]) := by
    have hwritten : sp.written = [("tree_sitter_kpl_Library", "[\x22kpl.so\x22]"),
        ("TREE_SITTER_KPL_SEARCH_PATH", path), ("Log_Level", "wArning"),
        ("log_format", "json")] := by
      decide +kernel
    rw [hwritten]
    decide +kernel
  exact configuration_of_environment c sp hfurther henv

end Settings

end GrammarLoader
