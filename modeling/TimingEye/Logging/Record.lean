/-!
# Log records

A record carries a severity, the name of the part that issued it and a message.  A threshold
decides which records are let through: those at or above it in severity.
-/

namespace TimingEye

/-- The severity of a record, gravest first. -/
inductive Severity where
  | error
  | warn
  | info
  | debug
  | trace
  deriving DecidableEq, Repr

namespace Severity

/-- The distance from silence: the gravest severity is the nearest. -/
def rank : Severity → Nat
  | error => 1
  | warn => 2
  | info => 3
  | debug => 4
  | trace => 5

def label : Severity → String
  | error => "ERROR"
  | warn => "WARN"
  | info => "INFO"
  | debug => "DEBUG"
  | trace => "TRACE"

def ofToken? : String → Option Severity
  | "error" => some error
  | "warn" => some warn
  | "info" => some info
  | "debug" => some debug
  | "trace" => some trace
  | _ => none

end Severity

/-- The least grave severity that is let through, or none at all. -/
inductive Threshold where
  | off
  | upTo (severity : Severity)
  deriving DecidableEq, Repr

namespace Threshold

/-- Whether records of a severity are let through. -/
def admits : Threshold → Severity → Bool
  | off, _ => false
  | upTo limit, severity => severity.rank ≤ limit.rank

def label : Threshold → String
  | off => "OFF"
  | upTo severity => severity.label

def ofToken? (name : String) : Option Threshold :=
  if name == "off" then some off else (Severity.ofToken? name).map upTo

end Threshold

structure Record where
  severity : Severity
  target : String
  message : String
  deriving DecidableEq, Repr

end TimingEye
