/-
# Log entries

What is noteworthy about a computation is told as log entries, in order.
-/

namespace SchemaDiagram

/-- How serious an entry is. -/
inductive LogLevel where
  | debug
  | warning
deriving DecidableEq, Repr

/-- The name of a level. -/
def LogLevel.name : LogLevel → String
  | .debug => "DEBUG"
  | .warning => "WARNING"

/-- A message with its level. -/
structure LogEntry where
  level : LogLevel
  message : String
deriving DecidableEq, Repr

/-- Whether an entry is shown: all are when details are asked for, else only warnings. -/
def LogEntry.isShown (details : Bool) (e : LogEntry) : Bool := details || e.level = .warning

end SchemaDiagram
