/-!
# Log levels

Events have one of five levels. A threshold is a number and is given by a name; beside the names of
the levels there are two synonyms and a name for the threshold that lets everything through.
-/

namespace GrammarLoader.Logging

/-- The level of an event. -/
inductive Level where
  | debug
  | info
  | warning
  | error
  | critical
  deriving Repr, DecidableEq

namespace Level

/-- The levels from the lowest to the highest. -/
def all : List Level := [debug, info, warning, error, critical]

/-- The number that a threshold is compared with. -/
def number : Level → Nat
  | debug => 10
  | info => 20
  | warning => 30
  | error => 40
  | critical => 50

/-- The name in log lines. -/
def name : Level → String
  | debug => "debug"
  | info => "info"
  | warning => "warning"
  | error => "error"
  | critical => "critical"

/-- The level with a number. -/
def numbered? (n : Int) : Option Level := all.find? (fun l => (l.number : Int) == n)

/-- The level that a word for logging an event asks for. -/
def asked? (word : String) : Option Level :=
  match word with
  | "warn" => some warning
  | "msg" => some info
  | "fatal" => some critical
  | _ => all.find? (·.name == word)

end Level

/-- The names of thresholds, in upper case. -/
def thresholds : List (String × Nat) :=
  [("CRITICAL", 50), ("FATAL", 50), ("ERROR", 40), ("WARNING", 30), ("WARN", 30), ("INFO", 20),
    ("DEBUG", 10), ("NOTSET", 0)]

/-- The threshold with a name. -/
def threshold? (name : String) : Option Nat := thresholds.lookup name

end GrammarLoader.Logging
