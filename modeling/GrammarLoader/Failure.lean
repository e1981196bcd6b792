import GrammarLoader.LinkResolution
import GrammarLoader.Template

/-!
# Failures

What can go wrong, by cause, with the text of each cause in one place. The binding's own errors
carry what they are about; foreign code may fail in any way, given by a kind and arguments, and even
the text of its failure may fail to be made. A fault is a failure together with the failures that
led to it, the nearest first.
-/

namespace GrammarLoader

/-- Kinds of failure that foreign code reports. -/
inductive ForeignKind where
  | general
  | badValue
  | badType
  | missingKey
  /-- From a call to the system. -/
  | system
  | runtime
  | missingAttribute
  | outOfMemory
  | iterationEnd
  | arithmetic
  | assertion
  /-- The user asks the process to stop. -/
  | interrupt
  /-- The process is asked to end with a status. -/
  | exit
  /-- A suspended computation is closed. -/
  | closing
  deriving Repr, DecidableEq

/-- Kinds that code may answer. The others mean that the process is to stop, and pass through
everything. -/
def ForeignKind.isOrdinary : ForeignKind → Bool
  | interrupt | exit | closing => false
  | _ => true

/-- A failure by its cause. -/
inductive Failure where
  /-- `BindingError`, the general error of the binding. -/
  | binding (message : Value)
  /-- `LibraryNotFoundError`: no compiled parser is at any of the places tried. -/
  | libraryNotFound (tried : List String)
  /-- `LibraryLoadError`: the library is there and cannot be used. -/
  | libraryUnusable (path details : Value)
  /-- `GrammarLoadError`: the grammar does not pass the check. -/
  | grammarRejected (name : Value)
  /-- Foreign code fails. -/
  | foreign (kind : ForeignKind) (args : List Value)
  /-- Foreign code fails, and making the text of that fails in turn, with a reason that has causes
  of its own. -/
  | silent (kind : ForeignKind) (args : List Value) (reason : Failure) (causes : List Failure)
  /-- A text does not become a path to look at. -/
  | path (error : PathError)
  /-- Values do not fit a template. -/
  | template (error : TemplateError)
  /-- The linker has no library at a path. -/
  | cannotOpen (path : String)
  /-- An address is null once it is cut to 64 bits. -/
  | nullAddress
  /-- A value is no address. -/
  | notAddress
  /-- A value that should have items has none, by its type. -/
  | notIterable (type : String)
  /-- An item that should be a text is of another type. -/
  | itemNotText (index : Nat) (type : String)
  /-- A value that should be a path is of another type. -/
  | notPath (type : String)
  /-- A log level that should be a text is of another type. -/
  | levelNotText (type : String)
  /-- No log level has this name. -/
  | unknownLevel (name : String)
  /-- No log level has this number. -/
  | unknownLevelNumber (number : Integer)
  /-- A value that should be added to a text is of another type. -/
  | notAppendable (type : String)
  /-- The settings have no such field. -/
  | unknownField (name : String)
  deriving Repr, Inhabited, BEq

namespace Failure

/-- The text that foreign arguments make: nothing, the single one, or all in parentheses. -/
def argumentText : List Value → String
  | [] => ""
  | [v] => v.shown
  | vs => Value.tuple vs

/-- The text of a failed call to the system: with two arguments or more they are a number, a text
and perhaps the file. -/
def systemText : List Value → String
  | [code, text] => "[Errno " ++ code.shown ++ "] " ++ text.shown
  | code :: text :: .null :: _ => "[Errno " ++ code.shown ++ "] " ++ text.shown
  | code :: text :: file :: _ =>
    "[Errno " ++ code.shown ++ "] " ++ text.shown ++ ": " ++ file.quoted
  | args => argumentText args

/-- The text of a foreign failure. -/
def foreignText : ForeignKind → List Value → String
  | .system, args => systemText args
  | .missingKey, [v] => v.quoted
  | _, args => argumentText args

/-- The text of a failure to make a path of a text. -/
def pathText : PathError → String
  | .unknownHome => "Could not determine home directory."
  | .nulCharacter => "embedded null byte"
  | .linkLoop p => "Symlink loop from " ++ Text.quoted p
  | .linksTooDeep => "maximum recursion depth exceeded"
  | .noAccess e p => "[Errno " ++ toString e.code ++ "] " ++ e.text ++ ": " ++ Text.quoted p

/-- The text of the error that no compiled parser is at the places tried. -/
def notFoundText (tried : List String) : String :=
  let listed := Value.commaSeparated tried
  "Compiled KPL parser not found. Tried: " ++ (if listed == "" then "<nothing>" else listed)

/-- The text of the error that a library cannot be used. -/
def unusableText (path details : Value) : String :=
  "Cannot load KPL parser from '" ++ path.shown ++ "': " ++ details.shown

/-- The text of the error that a grammar does not pass the check. -/
def rejectedText (name : Value) : String := "Error loading " ++ name.shown ++ " grammar"

/-- The binding's own errors. -/
def isBinding : Failure → Bool
  | binding _ | libraryNotFound _ | libraryUnusable _ _ | grammarRejected _ => true
  | _ => false

/-- What one of the binding's own errors carries. Its text is made when the error is. -/
def attributes : Failure → Entries
  | binding m => [("message", m)]
  | libraryNotFound tried =>
    [("tried", .list (tried.map Value.str)), ("message", .str (notFoundText tried))]
  | libraryUnusable p details => [("path", p), ("message", .str (unusableText p details))]
  | grammarRejected name => [("name", name), ("message", .str (rejectedText name))]
  | _ => []

/-- Failures of a call to the system. -/
def isSystem : Failure → Bool
  | foreign .system _ | silent .system _ _ _ | cannotOpen _ | path (.noAccess _ _) => true
  | _ => false

/-- What foreign code gives for the status of a process that is asked to end. -/
def exitArguments? : Failure → Option (List Value)
  | foreign .exit args | silent .exit args _ _ => some args
  | _ => none

/-- Failures that code may answer. -/
def isOrdinary : Failure → Bool
  | foreign kind _ | silent kind _ _ _ => kind.isOrdinary
  | _ => true

end Failure

namespace Value

/-- The items that a walk through a value meets: of a text its characters, of an object its
keys. -/
def items? : Value → Except Failure (List Value)
  | .list items => .ok items
  | .str s => .ok (s.toList.map (fun c => .str c.toString))
  | .object entries => .ok (entries.map (fun e => .str e.1))
  | v => .error (.notIterable v.typeName)

/-- The texts that all of some values are; `index` is the place of the first one. -/
def texts? (index : Nat) : List Value → Except Failure (List String)
  | [] => .ok []
  | .str s :: rest => (texts? (index + 1) rest).map (s :: ·)
  | v :: _ => .error (.itemNotText index v.typeName)

end Value

/-- The error that no library is at the places in a value, if these can be listed. -/
def Failure.libraryNotFoundAt (tried : Value) : Except Failure Failure := do
  let items ← tried.items?
  let texts ← Value.texts? 0 items
  return .libraryNotFound texts

/-- A failure and the failures that led to it. -/
structure Fault where
  failure : Failure
  causes : List Failure := []
  deriving Repr, Inhabited, BEq

namespace Fault

/-- A failure that another fault leads to. -/
def dueTo (failure : Failure) (cause : Fault) : Fault :=
  ⟨failure, cause.failure :: cause.causes⟩

instance : Coe Failure Fault := ⟨fun f => ⟨f, []⟩⟩

end Fault

/-- The text of a failure, or the fault that keeps it from being made. -/
def Failure.text : Failure → Except Fault String
  | binding m => .ok m.shown
  | libraryNotFound tried => .ok (notFoundText tried)
  | libraryUnusable p details => .ok (unusableText p details)
  | grammarRejected name => .ok (rejectedText name)
  | foreign kind args => .ok (foreignText kind args)
  | silent _ _ reason causes => .error ⟨reason, causes⟩
  | path e => .ok (pathText e)
  | template e => .ok e.message
  | cannotOpen p => .ok (p ++ ": cannot open shared object file: No such file or directory")
  | nullAddress => .ok "PyCapsule_New called with null pointer"
  | notAddress => .ok "argument 1: TypeError: wrong type"
  | notIterable t => .ok ("'" ++ t ++ "' object is not iterable")
  | itemNotText i t =>
    .ok ("sequence item " ++ toString i ++ ": expected str instance, " ++ t ++ " found")
  | notPath t => .ok ("expected str, bytes or os.PathLike object, not " ++ t)
  | levelNotText t => .ok ("'" ++ t ++ "' object has no attribute 'upper'")
  | unknownLevel name => .ok ("Unknown log level: " ++ name)
  | unknownLevelNumber n => .ok (toString n.value)
  | notAppendable t => .ok ("can only concatenate str (not \"" ++ t ++ "\") to str")
  | unknownField name => .ok ("\"Settings\" object has no field \"" ++ name ++ "\"")

namespace Fault

/-- The text of a fault is that of its failure. -/
def text (f : Fault) : Except Fault String := f.failure.text

/-- The text of a fault can be made. -/
def HasText (f : Fault) : Prop := ∃ s, f.text = .ok s

end Fault

example : (Failure.libraryNotFound ["a", "b"]).text.toOption =
    some "Compiled KPL parser not found. Tried: a, b" := by decide
example : (Failure.foreign .system [.int (.mk 2), .str "gone", .str "/f"]).text.toOption =
    some "[Errno 2] gone: '/f'" := by decide +kernel

end GrammarLoader
