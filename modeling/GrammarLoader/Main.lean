import GrammarLoader.Behaviour
import GrammarLoader.Settings.Sources
import GrammarLoader.Smoke
import Std.Time.DateTime

/-!
# The command

Runs the smoke check on the machine itself: settings from the environment and the file `.env`, files
as the system shows them, log lines to standard error. The process holds no linker, so a library
that is found is reported as one that does not open.
-/

namespace GrammarLoader.Command

/-- The text of a file, none if it cannot be read. -/
def readText? (path : String) : IO (Option String) := do
  try return some (← IO.FS.readFile path)
  catch _ => return none

/-- The variables of a block in which each ends in a NUL. -/
def blockVariables (block : String) : List (String × String) :=
  (splitAt '\x00' block.toList).filterMap (fun entry =>
    match entry.dropWhile (· != '=') with
    | _ :: value => some (String.ofList (entry.takeWhile (· != '=')), String.ofList value)
    | [] => none)

/-- The homes in the lines of an account file: the sixth field, by the first. -/
def accountHomes (text : String) : List (String × String) :=
  (splitAt '\n' text.toList).filterMap (fun line =>
    match (splitAt ':' line).map String.ofList with
    | name :: _ :: _ :: _ :: _ :: home :: _ => some (name, home)
    | _ => none)

/-- The moment that the clock shows. -/
def now : IO Logging.Moment := do
  let stamp ← Std.Time.Timestamp.now
  let time := Std.Time.PlainDateTime.ofWallTime (.ofNanoseconds stamp.toNanosecondsSinceUnixEpoch)
  return ⟨time.date.year.toInt.toNat, time.date.month.toInt.toNat, time.date.day.toInt.toNat,
    time.time.hour.toInt.toNat, time.time.minute.toInt.toNat, time.time.second.toInt.toNat,
    time.time.nanosecond.toInt.toNat / 1000⟩

/-- The kind of a node that is no link. -/
def plainNode : IO.FS.FileType → Node
  | .file => .file
  | .dir => .directory
  | _ => .pipe

/-- The names of the place where a path really is. -/
def realNames (path : String) : IO Location := do
  return (Path.ofString (toString (← IO.FS.realPath path))).names

/-- Adds to a tree what is at a path, links followed, and the link that the path names. -/
def surveyAt (t : FileTree) (p : Path) : IO FileTree := do
  try
    let place := (← IO.currentDir) / p.toString
    let real ← realNames p.toString
    let t := t.put real (plainNode (← place.metadata).type)
    match (← place.symlinkMetadata).type with
    | .symlink =>
      let folder ← realNames { p with names := p.names.dropLast }.toString
      return t.put (folder ++ p.names.getLast?.toList) (.link (Path.mk .root real).toString)
    | _ => return t
  catch _ => return t

/-- Adds to a tree what is on the way to an absolute path and at it. -/
def survey (t : FileTree) (p : Path) : IO FileTree :=
  (List.range (p.names.length + 1)).foldlM
    (fun t k => surveyAt t { p with names := p.names.take k }) t

/-- Adds what is at the paths that the settings name. -/
def surveyConfigured (w : World) : IO World := do
  let configured := w.settings.library :: (w.settings.searchPath.items?.toOption.getD [])
  let paths := configured.filterMap (fun v => match v with
    | .str s => ((Path.ofString s).expandHome w.homes).toOption
    | _ => none)
  let absolute := paths.map (fun p =>
    if p.isAbsolute then p else ⟨.root, w.directory ++ p.names⟩)
  return { w with files := ← absolute.foldlM survey w.files }

/-- Adds what is at the paths that the search looks at. -/
def surveyCandidates (w : World) : IO World := do
  let paths := (Search.candidates w).toOption.getD []
  return { w with files := ← paths.foldlM survey w.files }

/-- The world of the running process. -/
def world (environment : List (String × String)) (settings : Settings) : IO World := do
  let directory := (Path.ofString (toString (← IO.currentDir))).names
  let packageDirectory := Path.ofString (toString ((← IO.appPath).parent.getD "/"))
  let users := accountHomes ((← readText? "/etc/passwd").getD "")
  let bare : World :=
    { settings
      packageDirectory
      directory
      files := (FileTree.mk []).makeDirectory directory
      homes := ⟨environment.lookup "HOME", none, users⟩
      engine := Behaviour.languageOf
      now := ← now }
  surveyCandidates (← surveyConfigured bare)

/-- Ends with a status: a number is the status itself, and any other value is reported. -/
def finish : Except Fault Smoke.ExitStatus → IO UInt32
  | .ok (.own status) => return UInt32.ofNat status
  | .ok (.asked .null) => return 0
  | .ok (.asked (.int n)) => return UInt32.ofNat (n.value % 256).toNat
  | .ok (.asked v) => do
    IO.eprintln v.shown
    return 1
  | .error fault => do
    match fault.text with
    | .ok reason => IO.eprintln reason
    | .error _ => IO.eprintln "a failure without a text"
    return 1

/-- Runs the smoke check in the world of the process. -/
def run : IO UInt32 := do
  let environment := blockVariables ((← readText? "/proc/self/environ").getD "")
  match Settings.ofSources ⟨[], environment, ← readText? ".env"⟩ with
  | .error e =>
    e.lines.forM (fun line => IO.eprintln line)
    return 1
  | .ok settings =>
    let ended := Smoke.run (← world environment settings) {}
    ended.effects.forM (fun e => match e with
      | .wrote line => IO.eprint line
      | _ => pure ())
    finish (Smoke.exitStatus ended.answer)

end GrammarLoader.Command

/-- The status of the smoke check. -/
def main : IO UInt32 := GrammarLoader.Command.run
