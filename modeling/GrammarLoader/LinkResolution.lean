import GrammarLoader.FileTree

/-!
# Link resolution

The path without links, `.` or `..` that a path stands for. Names are taken one by one: `..` takes
back the last one, also behind something that is missing; a link is replaced by what its target
resolves to, and remembered. A link that is met while its own target is being resolved cannot be
replaced: from there on the path is taken as it is written.
-/

namespace GrammarLoader

/-- Why a text does not become a path to look at. -/
inductive PathError where
  /-- No home is known for the name behind a tilde. -/
  | unknownHome
  /-- The system takes no path with a NUL. -/
  | nulCharacter
  /-- The links lead round in a circle. -/
  | linkLoop (path : String)
  /-- Links whose targets go through links, more than can be held open. -/
  | linksTooDeep
  /-- The system does not let the path be looked at. -/
  | noAccess (error : AccessError) (path : String)
  deriving Repr, DecidableEq

/-- A place that resolution has reached: below the root, or from the working directory a number of
steps up and then down through names. -/
structure Place where
  absolute : Bool
  ups : Nat
  names : List String
  deriving Repr, DecidableEq

namespace Place

/-- The root. -/
def root : Place := ⟨true, 0, []⟩

/-- The working directory. -/
def here : Place := ⟨false, 0, []⟩

/-- The place one name further. -/
def child (p : Place) (name : String) : Place := { p with names := p.names ++ [name] }

/-- The place one name back. The root is above itself. -/
def parent (p : Place) : Place :=
  if !p.names.isEmpty then { p with names := p.names.dropLast }
  else if p.absolute then p
  else { p with ups := p.ups + 1 }

/-- The path of a place. -/
def toPath (p : Place) : Path :=
  ⟨if p.absolute then .root else .here, List.replicate p.ups ".." ++ p.names⟩

end Place

namespace LinkResolution

/-- Links met so far; a link whose target is still being resolved has no place yet. -/
abbrev Seen := List (Place × Option Place)

/-- How far resolution gets. -/
inductive Outcome where
  /-- To a place without links on the way to it. -/
  | reached (place : Place)
  /-- To a link that is being resolved: the path goes on as written. -/
  | stuck (path : Path)

/-- Takes the pieces of a path one by one from a place; `descend` resolves the target of a link,
given by its pieces, from a place. -/
def stepsWith (t : FileTree) (cwd : Location)
    (descend : Seen → Place → List String → Except PathError (Outcome × Seen)) :
    Seen → Place → List String → Except PathError (Outcome × Seen)
  | seen, here, [] => .ok (.reached here, seen)
  | seen, here, piece :: rest =>
    if isIdle piece then stepsWith t cwd descend seen here rest
    else if piece == ".." then stepsWith t cwd descend seen here.parent rest
    else
      let next := here.child piece
      if next.toPath.hasNul then .error .nulCharacter
      else match t.linkTarget? cwd next.toPath with
        | none => stepsWith t cwd descend seen next rest
        | some target =>
          match seen.lookup next with
          | some (some place) => stepsWith t cwd descend seen place rest
          | some none => .ok (.stuck (next.toPath.goOn rest), seen)
          | none =>
            let origin := if Path.isAbsoluteText (pieces target) then Place.root else here
            match descend (Assoc.insert next none seen) origin (pieces target) with
            | .error e => .error e
            | .ok (.reached place, seen) =>
              stepsWith t cwd descend (Assoc.insert next (some place) seen) place rest
            | .ok (.stuck path, seen) => .ok (.stuck (path.goOn rest), seen)

/-- How many links can be resolved inside one another. -/
def maxDepth : Nat := 1000

/-- Takes the pieces of a path one by one from a place, with a bound on links inside links. -/
def steps (t : FileTree) (cwd : Location) :
    (depth : Nat) → Seen → Place → List String → Except PathError (Outcome × Seen)
  | 0 => fun _ _ _ => .error .linksTooDeep
  | depth + 1 => stepsWith t cwd (steps t cwd depth)

/-- The path of an outcome. -/
def Outcome.path : Outcome → Path
  | reached place => place.toPath
  | stuck path => path

end LinkResolution

open LinkResolution in
/-- The absolute path without links that a path stands for. A circle of links is an error if the
system finds one too on the path that comes out. -/
def Path.resolve (t : FileTree) (cwd : Location) (p : Path) : Except PathError Path := do
  let origin := if p.isAbsolute then Place.root else Place.here
  let (outcome, _) ← steps t cwd maxDepth [] origin p.names
  let result := outcome.path.absolute cwd
  if result.hasNul then .error .nulCharacter
  else if t.status cwd result matches .error .tooManyLinks then .error (.linkLoop result.toString)
  else return result

end GrammarLoader
