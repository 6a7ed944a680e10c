/-!
# Platform

The fixed facts about the board: where its memories and registers lie in the address space, how
fast its clock is, and what it is called.
-/

namespace TimingEye
namespace Board

/-! ## Address space -/

structure Region where
  base : Nat
  size : Nat
  deriving DecidableEq, Repr

namespace Region

def rom : Region := ⟨0x00000000, 0x00008000⟩

def sram : Region := ⟨0x10000000, 0x00002000⟩

def hyperram : Region := ⟨0x20000000, 0x00800000⟩

/-- Main memory is the memory under calibration. -/
def mainRam : Region := hyperram

def csr : Region := ⟨0xf0000000, 0x00010000⟩

end Region

/-! ## Configuration -/

/-- Cycles of the system clock in a second. -/
def clockFrequency : Nat := 48000000

/-- Whether the processor is of the kind the board support expects, as a number. -/
def vexriscv : Nat := 1

def sharedCacheSize : Nat := 8192

def identifier : String := "hyperram testbed"

def platform : String := "testbed"

end Board
end TimingEye
