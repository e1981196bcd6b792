import GrammarLoader.Message
import GrammarLoader.Settings.Sources
import GrammarLoader.Smoke

/-!
# Sessions

A session is a world and the state of one process in it. Its steps are operations of the binding,
which leave the world as it is, and changes of the world, which leave the process as it is. Each
step reports what it comes to and what it does.
-/

namespace GrammarLoader

/-- What an operation comes to. -/
inductive Answer where
  | nothing
  | object (o : Object)
  | text (s : String)
  | texts (ss : List String)
  | status (n : Nat)
  | exit (status : Smoke.ExitStatus)
  | settings (s : Settings)

/-- An operation of the binding. -/
inductive Operation where
  | language
  | libraryPath
  | forget
  | candidates
  | locate
  /-- The check of a grammar by name; factory and engine default to the binding's own. -/
  | verify (name : Value) (factory : Option (Except Fault Object)) (engine : Option Engine)
  /-- The smoke check as a call. -/
  | smoke
  /-- The smoke check as a process. -/
  | smokeProcess
  | configureLogging (level format : Value)
  | message (m : Message)
  | bindContext (entries : Entries)
  | clearContext
  | settings

/-- A change of the world. -/
inductive Change where
  | assign (field : String) (v : Value)
  | putNode (location : Location) (n : Node)
  | removeNode (location : Location)
  | enterDirectory (location : Location)
  | putLibrary (path : String) (library : Library)
  | putSystemLibrary (name : String) (found : Option String)
  | replaceEngine (engine : Engine)

/-- A step of a session. -/
inductive Step where
  | operation (o : Operation)
  | change (c : Change)

/-- Runs an operation. -/
def Operation.run : Operation → Action Answer
  | language => return .object (← Loader.language)
  | libraryPath => return .text (← Loader.libraryPath)
  | forget => do
    Loader.forget
    return .nothing
  | candidates => do
    let paths ← Action.ofFailure (Search.candidates (← Action.world))
    return .texts (paths.map Path.toString)
  | locate => return .text (← Search.locate)
  | verify name factory engine => do
    let factory := match factory with
      | some made => Action.ofExcept made
      | none => Loader.language
    let engine := match engine with
      | some e => Check.engage e
      | none => Check.engageWorld
    return .object (← Check.verify name factory engine)
  | smoke => return .status (← Smoke.run)
  | smokeProcess => fun w p =>
    let ended := Smoke.run w p
    ⟨(Smoke.exitStatus ended.answer).map Answer.exit, ended.process, ended.effects⟩
  | configureLogging level format => do
    Action.configureLogging level format
    return .nothing
  | message m => do
    m.log
    return .nothing
  | bindContext entries => do
    Action.modify (fun p => { p with context := Assoc.insertAll p.context entries })
    return .nothing
  | clearContext => do
    Action.modify (fun p => { p with context := [] })
    return .nothing
  | settings => return .settings (← Action.world).settings

/-- Applies a change to a world. -/
def Change.apply (c : Change) (w : World) : Except Failure World :=
  match c with
  | assign field v => (w.settings.assign field v).map (fun s => { w with settings := s })
  | putNode location n => .ok { w with files := w.files.put location n }
  | removeNode location => .ok { w with files := w.files.remove location }
  | enterDirectory location =>
    .ok { w with directory := location, files := w.files.makeDirectory location }
  | putLibrary path library =>
    .ok { w with libraries := Assoc.insert path library w.libraries }
  | putSystemLibrary name found =>
    .ok { w with systemLibraries := match found with
      | some path => Assoc.insert name path w.systemLibraries
      | none => Assoc.erase name w.systemLibraries }
  | replaceEngine engine => .ok { w with engine }

/-- A world and the state of a process in it. -/
structure Session where
  world : World
  process : Process := {}

/-- What a step comes to and does, and whether a library is loaded after it. -/
structure Report where
  answer : Except Fault Answer
  effects : List Effect
  loaded : Bool

namespace Session

/-- The session after a step, and what the step reports. A change that fails changes nothing. -/
def step (s : Session) : Step → Session × Report
  | .operation o =>
    let outcome := o.run s.world s.process
    (⟨s.world, outcome.process⟩,
      ⟨outcome.answer, outcome.effects, outcome.process.loaded.isSome⟩)
  | .change c =>
    match c.apply s.world with
    | .ok w => (⟨w, s.process⟩, ⟨.ok .nothing, [], s.process.loaded.isSome⟩)
    | .error f => (s, ⟨.error f, [], s.process.loaded.isSome⟩)

/-- What the steps of a session report. -/
def run : Session → List Step → List Report
  | _, [] => []
  | s, first :: rest =>
    let (next, report) := s.step first
    report :: run next rest

theorem step_change_process (s : Session) (c : Change) :
    (s.step (.change c)).1.process = s.process := by
  simp only [step]
  split <;> rfl

end Session

end GrammarLoader
