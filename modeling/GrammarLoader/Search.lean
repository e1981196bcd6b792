import GrammarLoader.Action

/-!
# Search for the compiled parser

A library that the settings name is the only one looked at. Otherwise the package's own directory
comes first and the directories of the search path follow, each with three names; after them the
system searches. Every directory of the search path is resolved before any file is looked at.
-/

namespace GrammarLoader.Search

/-- The names of the compiled parser, without their suffix: `_STEMS`. -/
def stems : List String := ["kpl", "libtree-sitter-kpl", "tree-sitter-kpl"]

/-- The name that the system searches for: `LIBRARY_NAME`. -/
def libraryName : String := "tree-sitter-kpl"

/-- What an error says about the system's search. -/
def searchedText : String := "find_library(" ++ Text.quoted libraryName ++ ")"

/-- The absolute path without links that a configured text stands for. -/
def configuredPath (w : World) (s : String) : Except PathError Path := do
  let p ← (Path.ofString s).expandHome w.homes
  p.resolve w.files w.directory

/-- The path that a configured value stands for. -/
def valuePath (w : World) : Value → Except Failure Path
  | .str s => (configuredPath w s).mapError Failure.path
  | v => .error (.notPath v.typeName)

/-- The paths of the parser in a directory. -/
def namesIn (w : World) (directory : Path) : List Path :=
  stems.map (fun stem => directory.child (stem ++ librarySuffix w.platform))

/-- The directories of the search path. -/
def searchDirectories (w : World) : Except Failure (List Path) := do
  let entries ← w.settings.searchPath.items?
  entries.mapM (valuePath w)

/-- `candidate_paths`: the paths that are looked at in turn if the settings name no library. -/
def candidates (w : World) : Except Failure (List Path) := do
  let directories ← searchDirectories w
  return (w.packageDirectory :: directories).flatMap (namesIn w)

/-- Checks a path for a regular file. -/
def check (p : Path) : Action Bool := do
  Action.perform (.checked p.toString)
  let w ← Action.world
  Action.ofFailure ((w.files.isFile w.directory p).mapError
    (fun e => .path (.noAccess e p.toString)))

/-- The first path with a regular file. -/
def firstFile : List Path → Action (Option Path)
  | [] => return none
  | p :: rest => do
    if ← check p then return some p
    firstFile rest

/-- Lets the system search for the library with `find_library`. An empty answer is none. -/
def systemSearch : Action (Option String) := do
  Action.perform (.searched libraryName)
  let found := (← Action.world).systemLibraries.lookup libraryName
  return found.filter (· != "")

/-- The first half of `resolve_library_path`: the path of the library that the settings name. -/
def locateNamed (library : Value) : Action String := do
  let p ← Action.ofFailure (valuePath (← Action.world) library)
  if ← check p then return p.toString
  Action.fail (Failure.libraryNotFound [p.toString])

/-- The second half of `resolve_library_path`: the path of the first library in the directories, or
what the system finds. -/
def locateListed : Action String := do
  let paths ← Action.ofFailure (candidates (← Action.world))
  match ← firstFile paths with
  | some p => return p.toString
  | none =>
    match ← systemSearch with
    | some found => return found
    | none =>
      Action.fail (Failure.libraryNotFound (paths.map Path.toString ++ [searchedText]))

/-- `resolve_library_path`: the path of the compiled parser. -/
def locate : Action String := do
  let library := (← Action.world).settings.library
  if library.isTrue then locateNamed library else locateListed

end GrammarLoader.Search
