/-!
# Board variants

Gateware is built with or without some peripherals, and firmware with or without some features.
A variant fixes all of these choices.
-/

namespace TimingEye
namespace Board

/-- What the gateware contains and what the firmware was built with. -/
structure Variant where
  /-- The gateware has a memory controller to be calibrated. -/
  hyperram : Bool := true
  timer : Bool := true
  uart : Bool := true
  console : Bool := true
  logging : Bool := true
  deriving DecidableEq, Repr

namespace Variant

def full : Variant := {}

/-- Whether the firmware has a logger that prints to its console, each line with a time. -/
def consoleLogger (variant : Variant) : Bool :=
  variant.console && variant.logging && variant.timer

def ofToken? : String → Option Variant
  | "full" => some full
  | "nolog" => some { logging := false }
  | "quiet" => some { console := false, logging := false }
  | "bare" => some { hyperram := false }
  | "notimer" => some { timer := false }
  | "nouart" => some { uart := false }
  | _ => none

end Variant

end Board
end TimingEye
