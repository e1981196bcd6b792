import GrammarLoader.Logging.Line
import GrammarLoader.Settings
import GrammarLoader.Text.Upper

/-!
# Logging setup

A setup is a threshold and a style. It is made from a level's name and a format, each of which the
settings give when it is not given otherwise.
-/

namespace GrammarLoader.Logging

/-- Which events are written, and how. -/
structure Setup where
  threshold : Nat
  style : Style
  deriving Repr, DecidableEq

namespace Setup

/-- A value, or the one to fall back to when it counts as false. -/
def orElse (v fallback : Value) : Value := if v.isTrue then v else fallback

/-- The style that a format asks for: anything but `json` is for people. -/
def styleOf : Value → Style
  | .str "json" => .json
  | _ => .console

/-- What `configure_logging` makes of its arguments and the settings: the setup for a level's name
and a format. -/
def make (settings : Settings) (level format : Value) : Except Failure Setup :=
  match orElse level settings.logLevel with
  | .str s =>
    match threshold? (Text.upper s) with
    | some n => .ok ⟨n, styleOf (orElse format settings.logFormat)⟩
    | none => .error (.unknownLevel (Text.upper s))
  | v => .error (.levelNotText v.typeName)

end Setup

end GrammarLoader.Logging
