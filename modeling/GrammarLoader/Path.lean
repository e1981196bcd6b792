/-!
# Paths

A path is where it starts and the names it goes through. Reading a text drops repeated slashes, the
name `.` and a slash at the end; `..` stays, because what it leads to depends on the links before
it. Two slashes at the front, and no more, are a start of their own.
-/

namespace GrammarLoader

/-- The pieces of a text between the occurrences of a character: one more than there are
occurrences. -/
def splitAt (sep : Char) : List Char → List (List Char)
  | [] => [[]]
  | c :: rest =>
    if c == sep then [] :: splitAt sep rest
    else match splitAt sep rest with
      | [] => [[c]]
      | piece :: more => (c :: piece) :: more

/-- The pieces of a text between its slashes. An absolute text starts with an empty piece. -/
def pieces (s : String) : List String := (splitAt '/' s.toList).map String.ofList

/-- Where a path starts. -/
inductive Start where
  /-- At the working directory. -/
  | here
  /-- At the root. -/
  | root
  /-- At the root, written with two slashes. -/
  | doubleRoot
  deriving Repr, DecidableEq

/-- Pieces that lead nowhere. -/
def isIdle (piece : String) : Bool := piece == "" || piece == "."

/-- A path by its start and its names. -/
structure Path where
  start : Start
  names : List String
  deriving Repr, DecidableEq

namespace Path

/-- The start that the slashes at the front of a text stand for. -/
def startOf : List Char → Start
  | '/' :: '/' :: '/' :: _ => .root
  | '/' :: '/' :: _ => .doubleRoot
  | '/' :: _ => .root
  | _ => .here

/-- The path that a text writes. -/
def ofString (s : String) : Path :=
  ⟨startOf s.toList, (pieces s).filter (!isIdle ·)⟩

/-- The slashes in front of a path's names. -/
def slashes : Start → String
  | .here => ""
  | .root => "/"
  | .doubleRoot => "//"

/-- The text of a path; the path without names from the working directory is `.`. -/
def toString (p : Path) : String :=
  if p.start == .here && p.names.isEmpty then "."
  else slashes p.start ++ "/".intercalate p.names

/-- A path that does not depend on the working directory. -/
def isAbsolute (p : Path) : Bool := p.start != .here

/-- The path one name further. -/
def child (p : Path) (name : String) : Path := { p with names := p.names ++ [name] }

/-- Pieces of an absolute text: an empty piece in front and something behind it. -/
def isAbsoluteText : List String → Bool
  | "" :: _ :: _ => true
  | _ => false

/-- The start that pieces stand for. -/
def startOfPieces : List String → Start
  | "" :: "" :: "" :: _ :: _ => .root
  | "" :: "" :: _ :: _ => .doubleRoot
  | "" :: _ :: _ => .root
  | _ => .here

/-- The path that goes on with a text, given by its pieces: an absolute text leads away. -/
def goOn (p : Path) (rest : List String) : Path :=
  let names := rest.filter (!isIdle ·)
  if isAbsoluteText rest then ⟨startOfPieces rest, names⟩ else { p with names := p.names ++ names }

/-- The names after each `..` has taken the one before it away, beginning with those passed. -/
def foldUps : (passed : List String) → List String → List String
  | passed, [] => passed
  | passed, name :: rest =>
    if name == ".." then foldUps passed.dropLast rest else foldUps (passed ++ [name]) rest

/-- The path from the root that a path is for a working directory, with every `..` folded without a
look at links. -/
def absolute (cwd : List String) (p : Path) : Path :=
  match p.start with
  | .here => ⟨.root, foldUps cwd p.names⟩
  | start => ⟨start, foldUps [] p.names⟩

/-- A path that no call to the system takes. -/
def hasNul (p : Path) : Bool := p.names.any (fun n => n.toList.contains '\x00')

example : (ofString "/a//b/./c/").toString = "/a/b/c" := by decide +kernel
example : (ofString "").toString = "." ∧ (ofString "//a").toString = "//a" := by decide +kernel

theorem isAbsolute_absolute (cwd : List String) (p : Path) : (p.absolute cwd).isAbsolute := by
  obtain ⟨start, names⟩ := p
  cases start <;> rfl

end Path

end GrammarLoader
