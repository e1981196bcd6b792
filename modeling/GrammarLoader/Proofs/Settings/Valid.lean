import GrammarLoader.Settings.Sources

/-!
# Valid settings

Settings that a check finds nothing wrong with: the library is null or a text, the search path is a
list of texts, and level and format of the log are among their names. The defaults are valid, and so
are settings that come from their sources.
-/

namespace GrammarLoader

namespace Settings

/-- Settings that a check finds nothing wrong with. -/
def Valid (s : Settings) : Prop := ∀ f, problems f (s.get f) = []

theorem valid_default : Valid {} := by
  intro f
  cases f <;> rfl

theorem Valid.library {s : Settings} (h : s.Valid) :
    s.library = .null ∨ ∃ text, s.library = .str text := by
  have hlibrary := h .library
  unfold get at hlibrary
  cases hv : s.library with
  | null => exact .inl rfl
  | str text => exact .inr ⟨text, rfl⟩
  | bool | int | real | list | object =>
    rw [hv] at hlibrary
    cases hlibrary

theorem texts_of_itemProblems {items : List Value} {index : Nat}
    (h : itemProblems index items = []) : ∃ texts : List String, items = texts.map .str := by
  induction items generalizing index with
  | nil => exact ⟨[], rfl⟩
  | cons v rest ih =>
    cases v with
    | str text =>
      have htail : itemProblems (index + 1) rest = [] := h
      obtain ⟨texts, rfl⟩ := ih htail
      exact ⟨text :: texts, rfl⟩
    | null | bool | int | real | list | object => cases h

theorem Valid.searchPath {s : Settings} (h : s.Valid) :
    ∃ texts : List String, s.searchPath = .list (texts.map .str) := by
  have hpath := h .searchPath
  unfold get at hpath
  cases hv : s.searchPath with
  | list items =>
    rw [hv] at hpath
    obtain ⟨texts, rfl⟩ := texts_of_itemProblems hpath
    exact ⟨texts, rfl⟩
  | null | bool | int | real | str | object =>
    rw [hv] at hpath
    cases hpath

/-- The settings give the log a level and a format that a check finds nothing wrong with. -/
structure LogsAt (s : Settings) (level format : String) : Prop where
  logLevel : s.logLevel = .str level
  logFormat : s.logFormat = .str format
  level_mem : level ∈ levelNames
  format_mem : format ∈ formatNames

theorem text_of_nameProblems {f : Field} {problem : Problem} {names : List String} {v : Value}
    (h : nameProblems f problem names v = []) : ∃ text ∈ names, v = .str text := by
  cases v with
  | str text =>
    by_cases hn : names.contains text
    · exact ⟨text, by simpa using hn, rfl⟩
    · simp only [nameProblems, if_neg hn] at h
      cases h
  | null | bool | int | real | list | object => cases h

theorem Valid.logsAt {s : Settings} (h : s.Valid) : ∃ level format, s.LogsAt level format := by
  obtain ⟨level, hlevel, hl⟩ := text_of_nameProblems (h .logLevel)
  obtain ⟨format, hformat, hf⟩ := text_of_nameProblems (h .logFormat)
  exact ⟨level, format, hl, hf, hlevel, hformat⟩

theorem Draft.get_settings (d : Draft) (f : Field) :
    d.settings.get f = match d f with
      | none => ({} : Settings).get f
      | some v => normalised f v := by
  unfold Draft.settings Field.all
  simp only [List.foldl_cons, List.foldl_nil]
  cases hl : d .library <;> cases hs : d .searchPath <;> cases hv : d .logLevel <;>
    cases hf : d .logFormat <;> cases f <;> simp [hl, hs, hv, hf, get, put]

/-- Settings come from their sources checked. -/
theorem valid_of_ofSources {sources : Sources} {s : Settings} (h : ofSources sources = .ok s) :
    s.Valid := by
  unfold ofSources at h
  cases hd : sources.draft with
  | error e =>
    rw [hd] at h
    cases h
  | ok draft =>
    simp only [hd, bind, Except.bind] at h
    split at h
    · rename_i hp
      cases h
      intro f
      rw [draft.get_settings f]
      have hfield := List.flatMap_eq_nil_iff.mp hp f (Field.mem_all f)
      cases hf : draft f with
      | none => exact valid_default f
      | some v =>
        rw [hf] at hfield
        exact hfield
    · cases h

end Settings

end GrammarLoader
