import BufferedCan.BitTiming
import BufferedCan.Buffer.Layout

/-!
Settings of a controller: frame formats, bit timing, which buffers to use, and how long to wait for
the hardware. A controller takes them when it leaves freeze mode.
-/

namespace BufferedCan

inductive ClockSource
  | oscillator
  | peripheral
  deriving DecidableEq, Repr

structure Clock where
  source : ClockSource
  frequency : UInt32
  deriving DecidableEq, Repr

namespace Clock

def oscillator : Clock := ⟨.oscillator, 8000000⟩

def peripheral : Clock := ⟨.peripheral, 80000000⟩

end Clock

structure FlexibleRate where
  allowSwitching : Bool
  dataTiming : BitTiming
  dataSize : DataSize
  /-- Offset of the transceiver delay compensation in clock cycles; without one it stays off. -/
  delayOffset : Option UInt8
  deriving DecidableEq, Repr

inductive Mode
  | classic
  | flexible (rate : FlexibleRate)
  deriving DecidableEq, Repr

namespace Mode

def isFd : Mode → Bool
  | classic => false
  | flexible _ => true

def dataSize : Mode → DataSize
  | classic => .bytes8
  | flexible rate => rate.dataSize

def allowsSwitching : Mode → Bool
  | classic => false
  | flexible rate => rate.allowSwitching

end Mode

structure BufferChoice where
  transmit : Nat := 0
  receive : Nat := 4
  receiveId : BitVec 11 := 0
  deriving DecidableEq, Repr

structure Settings where
  nominal : BitTiming
  mode : Mode := .classic
  /-- Frames come back to the sender and reach nobody else. -/
  loopback : Bool := false
  buffers : BufferChoice := {}
  pollLimit : Nat := 100000
  deriving DecidableEq, Repr

def Settings.ofBitRate (bitRate : UInt32) : Settings where
  nominal := { bitRate }

end BufferedCan
