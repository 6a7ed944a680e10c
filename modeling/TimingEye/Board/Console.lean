import TimingEye.Board.Soc
import TimingEye.Board.Variant

/-!
# Console

Text leaves the board through its serial line, octet by octet, each one as soon as the line is
not busy.  A terminal needs a carriage return with every line feed; it is sent right after it
(`Console.wire`).
-/

namespace TimingEye
namespace Board
namespace Console

def lineFeed : UInt8 := 10

def carriageReturn : UInt8 := 13

def octets (text : String) : List UInt8 :=
  text.toByteArray.data.toList

/-- What is sent for one octet. -/
def wireOctet (octet : UInt8) : List UInt8 :=
  if octet = lineFeed then [lineFeed, carriageReturn] else [octet]

def wire (text : String) : List UInt8 :=
  (octets text).flatMap wireOctet

/-- Polls the serial line until it is not busy, at most `attempts` times. -/
def awaitRoom : (attempts : Nat) → Bus Unit
  | 0 => throw (.stalled .uart)
  | attempts + 1 => do
    let word ← Soc.read .uartTxfull
    if word.toUInt8 ≠ 0 then
      awaitRoom attempts

/-- Sends one octet.  The polls left bound the number of attempts. -/
def send (octet : UInt8) : Bus Unit := do
  let soc ← get
  awaitRoom (soc.pollsLeft + 1)
  Soc.write .uartRxtx octet.toUInt32

def sendAll : List UInt8 → Bus Unit
  | [] => pure ()
  | octet :: rest => do
    send octet
    sendAll rest

/-- Prints a text; without a serial line there is nowhere to print it to. -/
def print (variant : Variant) (text : String) : Bus Unit :=
  if variant.uart then sendAll (wire text) else pure ()

def printAll (variant : Variant) : List String → Bus Unit
  | [] => pure ()
  | piece :: rest => do
    print variant piece
    printAll variant rest

end Console
end Board
end TimingEye
