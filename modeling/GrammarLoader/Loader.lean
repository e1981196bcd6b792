import GrammarLoader.Search

/-!
# Loading the parser

The parser library is located and opened once; it stays loaded until it is forgotten. Nothing is
remembered of an attempt that fails. The grammar's descriptor is made anew for each caller.
-/

namespace GrammarLoader.Loader

/-- The symbol that gives the grammar's table: `SYMBOL`. -/
def symbolName : String := "tree_sitter_kpl"

/-- The error that a library cannot be used. -/
def unusable (path details : String) : Failure := .libraryUnusable (.str path) (.str details)

/-- Opens a library. -/
def openLibrary (path : String) : Action Library := do
  Action.perform (.opened path)
  match (← Action.world).libraries.lookup path with
  | none => Action.fail (Failure.cannotOpen path)
  | some library =>
    match library.refusal with
    | some fault => Action.fail fault
    | none => return library

/-- An error of the system on opening means that the library cannot be used, for the reason that its
text gives. -/
def openingFault (path : String) (f : Fault) : Fault :=
  if f.failure.isSystem then
    match f.text with
    | .ok details => .dueTo (unusable path details) f
    | .error g => g
  else f

/-- The parser symbol of a library. -/
def parserSymbol (path : String) (library : Library) : Except Fault Symbol :=
  if library.exports.contains symbolName then .ok ⟨path, library.call⟩
  else
    let details := "symbol '" ++ symbolName ++ "' not exported"
    .error (.dueTo (unusable path details) (library.absence symbolName))

/-- The event of a library loaded. -/
def loadedEvent (path : String) : Logging.Event :=
  .named .info "kpl_library_loaded" [("path", .str path)]

/-- The body of `_load`: locates and opens the library. -/
def loadAnew : Action Loaded := do
  let path ← Search.locate
  let library ← (openLibrary path).mapFault (openingFault path)
  let symbol ← Action.ofExcept (parserSymbol path library)
  Action.log (loadedEvent path)
  return ⟨path, symbol⟩

/-- `_load` as it is called: the loaded library, which is loaded and remembered if it is not yet. -/
def load : Action Loaded := do
  match (← Action.process).loaded with
  | some loaded => return loaded
  | none =>
    let loaded ← loadAnew
    Action.modify (fun p => { p with loaded := some loaded })
    return loaded

/-- Calls a symbol. -/
def callSymbol (symbol : Symbol) : Action Object := do
  Action.perform (.called symbol)
  Action.ofExcept symbol.call

/-- The event of a parser that gives no grammar. -/
def nullEvent (path : String) : Logging.Event :=
  .named .warning "kpl_language_null" [("path", .str path)]

/-- `language`: the grammar's descriptor, null if the parser gives none. -/
def language : Action Object := do
  let loaded ← load
  let address ← callSymbol loaded.symbol
  let descriptor ← Action.ofExcept address.wrap
  if descriptor.isNull then Action.log (nullEvent loaded.path)
  return descriptor

/-- `library_path`: the path of the loaded library. -/
def libraryPath : Action String := do
  return (← load).path

/-- `clear_cache`: forgets the loaded library. -/
def forget : Action Unit := Action.modify (fun p => { p with loaded := none })

end GrammarLoader.Loader
