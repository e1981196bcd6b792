import GrammarLoader.Assoc
import GrammarLoader.Path

/-!
# File trees

A tree of files as the system's calls see it: nodes at places that are named from the root. A call
walks a path name by name; each link it follows counts against a limit.
-/

namespace GrammarLoader

/-- The names from the root to a place in the tree. -/
abbrev Location := List String

/-- What is at a place. -/
inductive Node where
  | file
  | directory
  /-- Neither file nor directory. -/
  | pipe
  /-- A directory in which nothing may be looked up. -/
  | locked
  | link (target : String)
  deriving Repr, DecidableEq

/-- Why a call does not reach the end of a path. -/
inductive AccessError where
  | noEntry
  | notDirectory
  | denied
  | nameTooLong
  | tooManyLinks
  deriving Repr, DecidableEq

namespace AccessError

/-- The system's number of an error. -/
def code : AccessError → Nat
  | noEntry => 2
  | denied => 13
  | notDirectory => 20
  | nameTooLong => 36
  | tooManyLinks => 40

/-- The system's text of an error. -/
def text : AccessError → String
  | noEntry => "No such file or directory"
  | denied => "Permission denied"
  | notDirectory => "Not a directory"
  | nameTooLong => "File name too long"
  | tooManyLinks => "Too many levels of symbolic links"

/-- Errors that mean that there is no such file, as opposed to one that cannot be looked at. -/
def isAbsence : AccessError → Bool
  | noEntry | notDirectory | tooManyLinks => true
  | denied | nameTooLong => false

end AccessError

/-- The nodes of a tree. The root is a directory even if nothing is said about it. -/
structure FileTree where
  nodes : List (Location × Node) := []

namespace FileTree

/-- The node at a place. -/
def node? (t : FileTree) (loc : Location) : Option Node :=
  match t.nodes.lookup loc, loc with
  | some n, _ => some n
  | none, [] => some .directory
  | none, _ :: _ => none

/-- The tree with a directory at a place, unless there is something already. -/
def addDirectory (t : FileTree) (loc : Location) : FileTree :=
  if (t.node? loc).isSome then t else ⟨Assoc.insert loc .directory t.nodes⟩

/-- The tree with directories on the way to a place and a node there. -/
def put (t : FileTree) (loc : Location) (n : Node) : FileTree :=
  let ready := (List.range loc.length).foldl (fun t k => t.addDirectory (loc.take k)) t
  ⟨Assoc.insert loc n ready.nodes⟩

/-- The tree with directories on the way to a place and, unless there is something, at it. -/
def makeDirectory (t : FileTree) (loc : Location) : FileTree :=
  (List.range (loc.length + 1)).foldl (fun t k => t.addDirectory (loc.take k)) t

/-- The tree without a place and all below it. -/
def remove (t : FileTree) (loc : Location) : FileTree :=
  ⟨t.nodes.filter (fun p => !loc.isPrefixOf p.1)⟩

/-- The most bytes in a name. -/
def maxNameBytes : Nat := 255

/-- The most bytes in a path. -/
def maxPathBytes : Nat := 4095

/-- The most links that one call follows. -/
def maxLinks : Nat := 40

/-- Names can be looked up at a place that is a directory and open. -/
def enter (t : FileTree) (loc : Location) : Except AccessError Unit :=
  match t.node? loc with
  | some .directory => .ok ()
  | some .locked => .error .denied
  | some _ => .error .notDirectory
  | none => .error .noEntry

/-- A slash at the end asks for a directory, open or not. -/
def endsInDirectory (t : FileTree) (loc : Location) : Except AccessError Location :=
  match t.node? loc with
  | some .directory | some .locked => .ok loc
  | some _ => .error .notDirectory
  | none => .error .noEntry

/-- Walks pieces of a path from a place. A link at the end is followed if `followLast` says so;
`follow` goes on behind a link. -/
def walkWith (t : FileTree) (followLast : Bool)
    (follow : Location → List String → Except AccessError Location) :
    Location → List String → Except AccessError Location
  | loc, [] => .ok loc
  | loc, piece :: rest =>
    if piece == "" then
      if rest.isEmpty then t.endsInDirectory loc else walkWith t followLast follow loc rest
    else do
      t.enter loc
      if piece == "." then walkWith t followLast follow loc rest
      else if piece == ".." then walkWith t followLast follow loc.dropLast rest
      else if maxNameBytes < piece.utf8ByteSize then .error .nameTooLong
      else
        let next := loc ++ [piece]
        match t.node? next with
        | none => .error .noEntry
        | some (.link target) =>
          if rest.isEmpty && !followLast then .ok next
          else if target == "" then .error .noEntry
          else
            let ahead := pieces target ++ rest
            if Path.isAbsoluteText (pieces target) then follow [] ahead else follow loc ahead
        | some _ => walkWith t followLast follow next rest

/-- Walks pieces of a path from a place and follows up to a number of links. -/
def walk (t : FileTree) (followLast : Bool) :
    (links : Nat) → Location → List String → Except AccessError Location
  | 0 => walkWith t followLast (fun _ _ => .error .tooManyLinks)
  | links + 1 => walkWith t followLast (walk t followLast links)

/-- The place that a path leads to for a working directory. -/
def locate (t : FileTree) (followLast : Bool) (cwd : Location) (p : Path) :
    Except AccessError Location :=
  if maxPathBytes < p.toString.utf8ByteSize then .error .nameTooLong
  else t.walk followLast maxLinks (if p.isAbsolute then [] else cwd) p.names

/-- The node that a path leads to, links followed. -/
def status (t : FileTree) (cwd : Location) (p : Path) : Except AccessError (Option Node) :=
  (t.locate true cwd p).map t.node?

/-- The target of the link that a path names, if it names one. What cannot be looked at is no
link. -/
def linkTarget? (t : FileTree) (cwd : Location) (p : Path) : Option String :=
  match (t.locate false cwd p).map t.node? with
  | .ok (some (.link target)) => some target
  | _ => none

/-- A path leads to a regular file, links followed. A path with a NUL leads nowhere; errors that do
not mean absence are the caller's. -/
def isFile (t : FileTree) (cwd : Location) (p : Path) : Except AccessError Bool :=
  if p.hasNul then .ok false
  else match t.status cwd p with
    | .ok n => .ok (n == some .file)
    | .error e => if e.isAbsence then .ok false else .error e

/-- The small tree of the examples below. -/
private def sampleTree : FileTree :=
  ((FileTree.mk []).put ["a", "f"] .file).put ["l"] (.link "a/f")

example : (sampleTree.isFile [] ⟨.root, ["l"]⟩).toOption = some true := by decide +kernel
example : (sampleTree.isFile ["a"] ⟨.here, ["..", "l", "x"]⟩).toOption = some false := by
  decide +kernel

end FileTree

end GrammarLoader
