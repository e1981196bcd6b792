import GrammarLoader.LinkResolution

/-!
# Home directories

A path from the working directory whose first name starts with a tilde is taken from a home: of the
named user, or of the running one if no name follows.
-/

namespace GrammarLoader

/-- The homes that are known. -/
structure Homes where
  /-- The home that the environment names. -/
  fromEnvironment : Option String := none
  /-- The running user's home in the account data. -/
  own : Option String := none
  /-- The homes of users by name. -/
  users : List (String × String) := []

namespace Homes

/-- The home for what follows a tilde. -/
def home? (h : Homes) (user : String) : Option String :=
  if user == "" then h.fromEnvironment <|> h.own else h.users.lookup user

/-- A home without slashes at its end, unless it is the root. -/
def withoutEndSlashes (home : String) : String :=
  match (home.toList.reverse.dropWhile (· == '/')).reverse with
  | [] => "/"
  | cs => String.ofList cs

end Homes

/-- The path with its tilde replaced. A home that starts with a tilde itself is none. -/
def Path.expandHome (homes : Homes) (p : Path) : Except PathError Path :=
  match p.start, p.names with
  | .here, first :: rest =>
    match first.toList with
    | '~' :: user =>
      match (homes.home? (String.ofList user)).map Homes.withoutEndSlashes with
      | none => .error .unknownHome
      | some home =>
        if home.toList.head? == some '~' then .error .unknownHome
        else
          let base := Path.ofString home
          .ok { base with names := base.names ++ rest }
    | _ => .ok p
  | _, _ => .ok p

end GrammarLoader
