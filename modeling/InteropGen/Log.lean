import InteropGen.Terminal.Style
import InteropGen.Text.Blank

set_option autoImplicit false

/-!
# Log events

An event has a level, a message and named values.  Which events are shown depends on one level:
those that are at least as urgent.
-/

namespace InteropGen

/-- Levels, the most urgent first. -/
inductive LogLevel where
  | error
  | warn
  | info
  | debug
  | trace
  deriving DecidableEq, Repr

namespace LogLevel

def all : List LogLevel := [error, warn, info, debug, trace]

def keyword : LogLevel → String
  | error => "error"
  | warn => "warn"
  | info => "info"
  | debug => "debug"
  | trace => "trace"

def label : LogLevel → String
  | error => "ERROR"
  | warn => "WARN"
  | info => "INFO"
  | debug => "DEBUG"
  | trace => "TRACE"

def colour : LogLevel → Colour
  | error => .red
  | warn => .yellow
  | info => .green
  | debug => .blue
  | trace => .magenta

def rank : LogLevel → Nat
  | error => 0
  | warn => 1
  | info => 2
  | debug => 3
  | trace => 4

def words : List (String × LogLevel) :=
  [("error", error), ("err", error), ("warn", warn), ("warning", warn), ("info", info),
    ("debug", debug), ("trace", trace), ("verbose", trace)]

/-- Reads a word in any case of its ASCII letters, with blanks around it. -/
def parse? (text : String) : Option LogLevel :=
  words.lookup (String.ofList ((Text.trimChars text.toList).map Char.toLower))

def default : LogLevel := warn

/-- A flag that names a level outweighs the environment, and that one the default. -/
def resolve (flag environment : Option String) : LogLevel :=
  ((flag.bind parse?).or (environment.bind parse?)).getD default

def shownAt (level threshold : LogLevel) : Bool := level.rank ≤ threshold.rank

end LogLevel

structure LogEvent where
  level : LogLevel
  message : String
  values : List (String × String)
  deriving DecidableEq, Repr

namespace LogEvent

def valuePieces : String × String → List Piece
  | (name, value) =>
    [.plain " ", ⟨name, some { slanted := true }⟩, ⟨"=", some { faint := true }⟩, .plain value]

def pieces (e : LogEvent) : List Piece :=
  [⟨e.level.label, some { colour := some e.level.colour }⟩, .plain (" " ++ e.message)] ++
    e.values.flatMap valuePieces

def shown (threshold : LogLevel) (events : List LogEvent) : List LogEvent :=
  events.filter fun e => e.level.shownAt threshold

end LogEvent

end InteropGen
