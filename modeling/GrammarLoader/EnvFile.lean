import GrammarLoader.Assoc
import GrammarLoader.Text.Blank

/-!
# Environment files

A text of statements `NAME=value`. A value stands bare, up to the end of its line or a comment, or
in quotes, which may span lines and hold escapes. A statement that does not follow the grammar is
dropped with the rest of the line on which it fails. After that `${NAME}` and `${NAME:-default}`
inside values are replaced, by what earlier statements and the environment give.
-/

namespace GrammarLoader.EnvFile

/-- A text with every line end written as a line feed. -/
def unixLines : List Char → List Char
  | '\r' :: '\n' :: rest => '\n' :: unixLines rest
  | '\r' :: rest => '\n' :: unixLines rest
  | c :: rest => c :: unixLines rest
  | [] => []

/-- A text without the mark that some editors put in front. -/
def withoutMark : List Char → List Char
  | '\ufeff' :: rest => rest
  | cs => cs

/-- What follows blanks that do not end the line. -/
def skipInner (cs : List Char) : List Char := cs.dropWhile Text.isInnerBlank

/-- What follows the end of the line. -/
def nextLine (cs : List Char) : List Char := (cs.dropWhile (· != '\n')).drop 1

/-- What follows the word `export` and the blanks that have to stand behind it. -/
def skipExport (cs : List Char) : List Char :=
  match "export".toList.isPrefixOf cs, cs.drop 6 with
  | true, c :: rest => if Text.isInnerBlank c then skipInner rest else cs
  | _, _ => cs

/-- Characters of a bare name. -/
def isNameChar (c : Char) : Bool := c != '=' && c != '#' && !Text.isBlank c

/-- The name of a statement, none for a comment, and what follows it. -/
def name? (cs : List Char) : Option (Option (List Char) × List Char) :=
  match cs with
  | '#' :: _ => some (none, cs)
  | '\x27' :: rest =>
    match rest.takeWhile (· != '\x27'), rest.dropWhile (· != '\x27') with
    | c :: name, _ :: after => some (some (c :: name), after)
    | _, _ => none
  | cs =>
    match cs.takeWhile isNameChar with
    | [] => none
    | name => some (some name, cs.dropWhile isNameChar)

/-- The inside of a quoted text, escapes as written, and what follows the closing quote. A
backslash keeps the character behind it from closing the text. -/
def quotedInside (quote : Char) : List Char → Option (List Char × List Char)
  | [] => none
  | '\\' :: c :: rest => (quotedInside quote rest).map (fun p => ('\\' :: c :: p.1, p.2))
  | c :: rest =>
    if c == quote then some ([], rest)
    else (quotedInside quote rest).map (fun p => (c :: p.1, p.2))

/-- What a backslash and a character stand for between single quotes. -/
def singleEscape? : Char → Option Char
  | '\\' => some '\\'
  | '\x27' => some '\x27'
  | _ => none

/-- What a backslash and a character stand for between double quotes. -/
def doubleEscape? : Char → Option Char
  | '\\' => some '\\'
  | '\x27' => some '\x27'
  | '"' => some '"'
  | 'a' => some '\x07'
  | 'b' => some '\x08'
  | 'f' => some '\x0c'
  | 'n' => some '\n'
  | 'r' => some '\r'
  | 't' => some '\t'
  | 'v' => some '\x0b'
  | _ => none

/-- A text with its escapes replaced; a backslash that starts none stays. -/
def unescape (escape? : Char → Option Char) : List Char → List Char
  | '\\' :: c :: rest =>
    match escape? c with
    | some x => x :: unescape escape? rest
    | none => '\\' :: c :: unescape escape? rest
  | c :: rest => c :: unescape escape? rest
  | [] => []

/-- A bare text up to the blanks in front of a comment. -/
def beforeComment : List Char → List Char
  | [] => []
  | c :: rest =>
    if Text.isBlank c && (rest.dropWhile Text.isBlank).head? == some '#' then []
    else c :: beforeComment rest

/-- A text without blanks at its end. -/
def trimEnd (cs : List Char) : List Char := (cs.reverse.dropWhile Text.isBlank).reverse

/-- A value behind its equals sign and blanks, and what follows it. -/
def value? (cs : List Char) : Option (List Char × List Char) :=
  match cs with
  | '\x27' :: rest =>
    (quotedInside '\x27' rest).map (fun p => (unescape singleEscape? p.1, p.2))
  | '"' :: rest => (quotedInside '"' rest).map (fun p => (unescape doubleEscape? p.1, p.2))
  | cs =>
    some (trimEnd (beforeComment (cs.takeWhile (· != '\n'))), cs.dropWhile (· != '\n'))

/-- The value of a statement behind its name, none without an equals sign, and what follows it; or
where the value fails. Blanks and a comment behind the equals sign make the empty value. -/
def assigned (cs : List Char) : Except (List Char) (Option (List Char) × List Char) :=
  match cs with
  | '=' :: rest =>
    let start := skipInner rest
    if start.length < rest.length && start.head? == some '#' then .ok (some [], start)
    else match value? start with
      | some (v, after) => .ok (some v, after)
      | none => .error start
  | cs => .ok (none, cs)

/-- What follows a comment, if there is one. -/
def skipComment (cs : List Char) : List Char :=
  match skipInner cs with
  | '#' :: rest => rest.dropWhile (· != '\n')
  | _ => cs

/-- What follows the end of a line, if only blanks stand in front of it. -/
def lineEnd? (cs : List Char) : Option (List Char) :=
  match skipInner cs with
  | [] => some []
  | '\n' :: rest => some rest
  | _ => none

/-- A name and its value; a name without an equals sign has none. -/
abbrev Statement := List Char × Option (List Char)

/-- The statement at the start of a text, none for a comment, and what follows its line; or where
it fails. -/
def statement (cs : List Char) : Except (List Char) (Option Statement × List Char) :=
  let start := skipExport cs
  match name? start with
  | none => .error start
  | some (name, afterName) =>
    match assigned (skipInner afterName) with
    | .error place => .error place
    | .ok (value, afterValue) =>
      let place := skipComment afterValue
      match lineEnd? place with
      | none => .error place
      | some rest => .ok (name.map (·, value), rest)

/-- The statements of a text. Each takes at least one character, so the length bounds the turns. -/
def statementsFrom : Nat → List Char → List Statement
  | 0, _ => []
  | fuel + 1, cs =>
    match cs.dropWhile Text.isBlank with
    | [] => []
    | start =>
      match statement start with
      | .ok (some s, rest) => s :: statementsFrom fuel rest
      | .ok (none, rest) => statementsFrom fuel rest
      | .error place => statementsFrom fuel (nextLine place)

/-- The statements of a file. -/
def statements (text : String) : List Statement :=
  let cs := unixLines (withoutMark text.toList)
  statementsFrom cs.length cs

/-- The reference behind a dollar sign and an opening brace: its name, its default, and what
follows the closing brace. -/
def reference? (cs : List Char) : Option (List Char × Option (List Char) × List Char) :=
  let name := cs.takeWhile (fun c => c != '\x7d' && c != ':')
  match cs.dropWhile (fun c => c != '\x7d' && c != ':') with
  | '\x7d' :: rest => some (name, none, rest)
  | ':' :: '-' :: rest =>
    match rest.dropWhile (· != '\x7d') with
    | _ :: after => some (name, some (rest.takeWhile (· != '\x7d')), after)
    | [] => none
  | _ => none

/-- A text with its references replaced. `find` gives what a name stands for, if it is known; the
default stands in only for a name that is not. Every turn takes at least one character. -/
def substituteFrom (find : List Char → Option (List Char)) : Nat → List Char → List Char
  | 0, cs => cs
  | _ + 1, [] => []
  | fuel + 1, '$' :: '\x7b' :: rest =>
    match reference? rest with
    | some (name, default, after) =>
      (find name).getD (default.getD []) ++ substituteFrom find fuel after
    | none => '$' :: substituteFrom find fuel ('\x7b' :: rest)
  | fuel + 1, c :: rest => c :: substituteFrom find fuel rest

/-- A text with its references replaced. -/
def substitute (find : List Char → Option (List Char)) (cs : List Char) : List Char :=
  substituteFrom find cs.length cs

/-- Variables by name; a name without a value is known too. -/
abbrev Variables := List (String × Option String)

/-- What a name stands for: an earlier statement counts before the environment, and a name without
a value stands for nothing. -/
def find? (earlier : Variables) (environment : List (String × String)) (name : List Char) :
    Option (List Char) :=
  match earlier.lookup (String.ofList name), environment.lookup (String.ofList name) with
  | some v, _ => some (v.getD "").toList
  | none, some v => some v.toList
  | none, none => none

/-- Adds a statement to the variables, with the references in its value replaced. -/
def define (environment : List (String × String)) (earlier : Variables) (s : Statement) :
    Variables :=
  let value := s.2.map (fun cs => String.ofList (substitute (find? earlier environment) cs))
  Assoc.insert (String.ofList s.1) value earlier

/-- The variables that a file defines in an environment. -/
def read (environment : List (String × String)) (text : String) : Variables :=
  (statements text).foldl (define environment) []

example : read [("H", "/h")] "A=1 # one\nexport B='x\\'y'\nC=\"$\x7bA\x7d:$\x7bH\x7d\"\nD" =
    [("A", some "1"), ("B", some "x'y"), ("C", some "1:/h"), ("D", none)] := by decide +kernel

end GrammarLoader.EnvFile
