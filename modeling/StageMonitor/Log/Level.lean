/-! # Severities and levels

An event is shown if it is at least as severe as the level asks for.
-/

namespace StageMonitor

inductive Severity
  | error
  | warn
  | info
  | debug
  | trace
  deriving DecidableEq, Repr

namespace Severity

/-- The more severe, the smaller. -/
def rank : Severity → Nat
  | error => 1
  | warn => 2
  | info => 3
  | debug => 4
  | trace => 5

def name : Severity → String
  | error => "ERROR"
  | warn => "WARN"
  | info => "INFO"
  | debug => "DEBUG"
  | trace => "TRACE"

end Severity

/-- The least severity that is shown, if any. -/
inductive Level
  | off
  | upTo (severity : Severity)
  deriving DecidableEq, Repr

namespace Level

def shows : Level → Severity → Bool
  | off, _ => false
  | upTo least, severity => severity.rank ≤ least.rank

def name : Level → String
  | off => "OFF"
  | upTo severity => severity.name

def all : List Level :=
  [off, upTo .error, upTo .warn, upTo .info, upTo .debug, upTo .trace]

/-- A level by its number: digits, with a plus sign or without. -/
def ofNumber? (s : List Char) : Option Level :=
  let digits := match s with
    | '+' :: ds => ds
    | ds => ds
  if digits ≠ [] ∧ digits.all Char.isDigit then
    all[digits.foldl (fun n c => n * 10 + (c.toNat - '0'.toNat)) 0]?
  else none

/-- A level by its name in any case; no name at all asks for errors. -/
def ofName? (s : String) : Option Level :=
  if s = "" then some (upTo .error)
  else all.find? fun level => level.name = s.map Char.toUpper

def ofString? (s : String) : Option Level :=
  ofNumber? s.toList <|> ofName? s

end Level

end StageMonitor
