import GrammarLoader.Home
import GrammarLoader.Logging.Setup
import GrammarLoader.Object

/-!
# The world

What the binding finds around it and does not change: settings, the tree of files, homes, the
libraries that the linker can open, the engine and the clock. Foreign code is given by what a call
to it comes to.
-/

namespace GrammarLoader

/-- A compiled library, as the linker sees it. -/
structure Library where
  /-- Why the library does not open, if it does not. -/
  refusal : Option Fault := none
  /-- The symbols that it exports. -/
  exports : List String
  /-- What looking for another symbol comes to. -/
  absence : String → Failure
  /-- What a call of the parser symbol comes to. -/
  call : Except Fault Object

/-- A symbol of an opened library. -/
structure Symbol where
  /-- The path under which the library was opened. -/
  library : String
  /-- What a call of the symbol comes to. -/
  call : Except Fault Object

/-- What making an engine's language of a descriptor comes to. -/
abbrev Engine := Object → Except Fault Object

/-- `shared_library_suffix`, by the platform: two of them name shared libraries in ways of their
own. -/
def librarySuffix (platform : String) : String :=
  if platform == "win32" then ".dll"
  else if platform == "darwin" then ".dylib"
  else ".so"

/-- What is around the binding. -/
structure World where
  settings : Settings := {}
  /-- The directory of the package itself, used as it is. -/
  packageDirectory : Path
  platform : String := "linux"
  /-- The working directory. -/
  directory : Location := []
  files : FileTree := {}
  homes : Homes := {}
  /-- What the system's own search for a library finds. -/
  systemLibraries : List (String × String) := []
  /-- The libraries that can be opened, by path. -/
  libraries : List (String × Library) := []
  engine : Engine
  now : Logging.Moment

end GrammarLoader
