import GrammarLoader.Failure

/-!
# Settings

The four fields that configure the binding. Checked settings hold a text or null for the library, a
list of texts for the search path, one of five level names and one of two formats; a field can be
assigned any value afterwards, unchecked.
-/

namespace GrammarLoader

/-- The fields of the settings. -/
inductive Field where
  /-- The compiled parser itself. -/
  | library
  /-- More directories to search for it. -/
  | searchPath
  | logLevel
  | logFormat
  deriving Repr, DecidableEq

namespace Field

/-- The fields in the order in which they are checked. -/
def all : List Field := [library, searchPath, logLevel, logFormat]

/-- The name of a field, as a variable of the environment has it too. -/
def name : Field → String
  | library => "TREE_SITTER_KPL_LIBRARY"
  | searchPath => "TREE_SITTER_KPL_SEARCH_PATH"
  | logLevel => "LOG_LEVEL"
  | logFormat => "LOG_FORMAT"

/-- The field with exactly this name. -/
def named? (name : String) : Option Field := all.find? (·.name == name)

/-- The lower case of a character, as far as it is ASCII: beside the ASCII letters only the Kelvin
sign has one. -/
def lowerChar (c : Char) : Char := if c == '\u212a' then 'k' else c.toLower

/-- A name is that of a field if the two differ in case only. -/
def isNamed (f : Field) (name : String) : Bool :=
  name.toList.map lowerChar == f.name.toList.map lowerChar

theorem mem_all (f : Field) : f ∈ all := by cases f <;> decide

end Field

/-- `Settings`, and which fields were given a value explicitly. -/
structure Settings where
  library : Value := .null
  searchPath : Value := .list []
  logLevel : Value := .str "INFO"
  logFormat : Value := .str "console"
  explicit : List Field := []
  deriving Repr, Inhabited, BEq

namespace Settings

/-- The value of a field. -/
def get (s : Settings) : Field → Value
  | .library => s.library
  | .searchPath => s.searchPath
  | .logLevel => s.logLevel
  | .logFormat => s.logFormat

/-- The settings with another value in a field. -/
def put (s : Settings) (f : Field) (v : Value) : Settings :=
  match f with
  | .library => { s with library := v }
  | .searchPath => { s with searchPath := v }
  | .logLevel => { s with logLevel := v }
  | .logFormat => { s with logFormat := v }

/-- Assigns a field by its name, without a check of the value. -/
def assign (s : Settings) (name : String) (v : Value) : Except Failure Settings :=
  match Field.named? name with
  | none => .error (.unknownField name)
  | some f =>
    let explicit := Field.all.filter (fun g => g == f || s.explicit.contains g)
    .ok { s.put f v with explicit }

@[simp] theorem get_put_self (s : Settings) (f : Field) (v : Value) : (s.put f v).get f = v := by
  cases f <;> rfl

theorem get_put_of_ne (s : Settings) {f g : Field} (v : Value) (h : g ≠ f) :
    (s.put f v).get g = s.get g := by
  cases f <;> cases g <;> first | rfl | exact absurd rfl h

end Settings

end GrammarLoader
