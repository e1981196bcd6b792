import GrammarLoader.EnvFile
import GrammarLoader.Json.Reader
import GrammarLoader.Settings
import GrammarLoader.Text.Upper

/-!
# Settings from their sources

Settings are made from three sources: given values first, then the variables of the environment,
then those of an environment file, and defaults for what none of them gives. The last two hold
texts; the search path among them is the JSON text of a list. Every source is read before the
values that win are checked, and the check reports each bad field.
-/

namespace GrammarLoader

/-- Sources that hold texts. -/
inductive Origin where
  | environment
  | envFile
  deriving Repr, DecidableEq

/-- What is wrong with the value of a field. -/
inductive Problem where
  | notText
  | notList
  | notLevel
  | notFormat
  deriving Repr, DecidableEq

namespace Problem

/-- The word for a problem. -/
def code : Problem → String
  | notText => "string_type"
  | notList => "list_type"
  | notLevel | notFormat => "literal_error"

/-- The text of a problem. -/
def message : Problem → String
  | notText => "Input should be a valid string"
  | notList => "Input should be a valid list"
  | notLevel => "Input should be 'DEBUG', 'INFO', 'WARNING', 'ERROR' or 'CRITICAL'"
  | notFormat => "Input should be 'json' or 'console'"

end Problem

/-- A problem with the value of a field, or with one item of it. -/
structure FieldProblem where
  field : Field
  index : Option Nat := none
  problem : Problem
  input : Value
  deriving Repr, BEq

/-- Why there are no settings. -/
inductive SettingsError where
  /-- The search path in a source is no JSON text. -/
  | unreadable (origin : Origin)
  /-- Values that win are bad. -/
  | invalid (problems : List FieldProblem)
  deriving Repr, BEq

/-- The lines that report an error: one for a source, or one for each problem. -/
def SettingsError.lines : SettingsError → List String
  | unreadable .environment => [Field.searchPath.name ++ ": no JSON text in the environment"]
  | unreadable .envFile => [Field.searchPath.name ++ ": no JSON text in the environment file"]
  | invalid problems => problems.map (fun p => p.field.name ++ ": " ++ p.problem.message)

namespace Settings

/-- The sources of settings. -/
structure Sources where
  given : List (String × Value) := []
  environment : List (String × String) := []
  envFile : Option String := none

/-- What a source gives: a value for some of the fields. -/
abbrev Draft := Field → Option Value

/-- The names that a level may have. -/
def levelNames : List String := ["DEBUG", "INFO", "WARNING", "ERROR", "CRITICAL"]

/-- The names that a format may have. -/
def formatNames : List String := ["json", "console"]

/-- The value for a field in a mapping: under exactly its name, or else under the last of the names
that differ in case only. -/
def givenDraft (given : List (String × Value)) : Draft := fun f =>
  let mapping := Assoc.ofPairs given
  match mapping.lookup f.name with
  | some v => some v
  | none => (mapping.reverse.find? (fun p => f.isNamed p.1)).map (·.2)

/-- The text for a field among variables: the last of the names that differ in case only counts,
also if it has no value. -/
def textFor (vars : EnvFile.Variables) (f : Field) : Option String :=
  ((vars.reverse.find? (fun p => f.isNamed p.1)).map (·.2)).join

/-- The values that variables give. A search path of null is none. -/
def textDraft (origin : Origin) (vars : EnvFile.Variables) : Except SettingsError Draft :=
  let draft (path : Option Value) : Draft := fun f =>
    if f = .searchPath then path else (textFor vars f).map Value.str
  match textFor vars .searchPath with
  | none => .ok (draft none)
  | some text =>
    match Json.read text with
    | none => .error (.unreadable origin)
    | some .null => .ok (draft none)
    | some v => .ok (draft (some v))

/-- What two sources give together. The higher one wins, but objects are laid over one another. -/
def Draft.over (higher lower : Draft) : Draft := fun f =>
  match higher f, lower f with
  | some h, some l => some (l.layOver h)
  | some h, none => some h
  | none, l => l

/-- The variables of the environment. -/
def environmentVariables (environment : List (String × String)) : EnvFile.Variables :=
  (Assoc.ofPairs environment).map (fun p => (p.1, some p.2))

/-- What all sources give together. -/
def Sources.draft (s : Sources) : Except SettingsError Draft := do
  let environment ← textDraft .environment (environmentVariables s.environment)
  let file ← textDraft .envFile
    (EnvFile.read (Assoc.ofPairs s.environment) (s.envFile.getD ""))
  return ((givenDraft s.given).over environment).over file

/-- A value as its field holds it: `_upper_level` puts the name of a level in upper case. -/
def normalised : Field → Value → Value
  | .logLevel, .str s => .str (Text.upper s)
  | _, v => v

/-- The problems of the items of a search path from an index on. -/
def itemProblems (index : Nat) : List Value → List FieldProblem
  | [] => []
  | .str _ :: rest => itemProblems (index + 1) rest
  | v :: rest => ⟨.searchPath, some index, .notText, v⟩ :: itemProblems (index + 1) rest

/-- The problem of a value that should be one of some names. -/
def nameProblems (f : Field) (problem : Problem) (names : List String) (v : Value) :
    List FieldProblem :=
  match v with
  | .str s => if names.contains s then [] else [⟨f, none, problem, v⟩]
  | _ => [⟨f, none, problem, v⟩]

/-- The problems of a field's value, as the field would hold it. -/
def problems : Field → Value → List FieldProblem
  | .library, .null => []
  | .library, .str _ => []
  | .library, v => [⟨.library, none, .notText, v⟩]
  | .searchPath, .list items => itemProblems 0 items
  | .searchPath, v => [⟨.searchPath, none, .notList, v⟩]
  | .logLevel, v => nameProblems .logLevel .notLevel levelNames v
  | .logFormat, v => nameProblems .logFormat .notFormat formatNames v

/-- The problems of all values that a draft gives, field by field. -/
def Draft.problems (d : Draft) : List FieldProblem :=
  Field.all.flatMap (fun f => match d f with
    | none => []
    | some v => Settings.problems f (normalised f v))

/-- The settings that a draft makes of the defaults. -/
def Draft.settings (d : Draft) : Settings :=
  let fill (s : Settings) (f : Field) : Settings :=
    match d f with
    | none => s
    | some v => s.put f (normalised f v)
  { Field.all.foldl fill {} with explicit := Field.all.filter (fun f => (d f).isSome) }

/-- The making of `Settings` from its sources: they give settings if each can be read and no value
that wins is bad. -/
def ofSources (s : Sources) : Except SettingsError Settings := do
  let draft ← s.draft
  match draft.problems with
  | [] => return draft.settings
  | problems => .error (.invalid problems)

/-- The values and explicit fields of settings, if there are any. -/
private def summary (r : Except SettingsError Settings) : Option (List String × List Field) :=
  r.toOption.map (fun s => (Field.all.map (fun f => (s.get f).shown), s.explicit))

example : summary (ofSources ⟨[("LOG_LEVEL", .str "debug")],
      [("Log_Level", "error"), ("tree_sitter_kpl_search_path", "[\"/a\"]")], none⟩) =
    some (["None", "['/a']", "DEBUG", "console"], [.searchPath, .logLevel]) := by decide +kernel

end Settings

end GrammarLoader
