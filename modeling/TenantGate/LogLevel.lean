/-!
# Levels of the log
-/

namespace TenantGate

inductive LogLevel
  | error
  | info
  | debug
  deriving DecidableEq, Repr

namespace LogLevel

def all : List LogLevel := [.error, .info, .debug]

def text : LogLevel → String
  | .error => "error"
  | .info => "info"
  | .debug => "debug"

def ofText? (s : String) : Option LogLevel := all.find? fun level => level.text == s.toLower

def badLevelMessage (s : String) : String :=
  "bad log level: " ++ s ++ " (expected one of error|info|debug)"

theorem ofText?_text (level : LogLevel) : ofText? level.text = some level := by
  cases level <;> decide +kernel

end LogLevel
end TenantGate
