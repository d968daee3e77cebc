import BufferedCan.Buffer.Transfer
import BufferedCan.Hardware.Memory
import BufferedCan.Program.Checked

/-!
A model of one controller: its register block and what the hardware does with it. The controller
acknowledges mode changes when they are written, turns a transmit buffer that is handed over into a
transfer for the wire, and stores a transfer that it hears in the first receive buffer that matches.
-/

namespace BufferedCan

structure Transfer where
  sender : Nat
  buffer : Nat
  control : UInt32
  ident : UInt32
  words : List UInt32
  deriving DecidableEq, Repr

structure Station where
  memory : Memory
  stalled : Bool
  timerReads : Nat
  deriving DecidableEq

namespace Mcr

def withStatus (lowPower frozen notReady : Bool) (word : UInt32) : UInt32 :=
  Mcr.notrdy.put notReady (Mcr.frzack.put frozen (Mcr.lpmack.put lowPower word))

def asksForLowPower (word : UInt32) : Bool := Mcr.mdis.isSet word

def asksForFreeze (word : UInt32) : Bool := Mcr.frz.isSet word && Mcr.halt.isSet word

/-- The word with the status that its mode bits lead to. Low power goes before freeze. -/
def acknowledged (word : UInt32) : UInt32 :=
  if asksForLowPower word then withStatus true false true word
  else if asksForFreeze word then withStatus false true true word
  else withStatus false false false word

def unacknowledged (before word : UInt32) : UInt32 :=
  withStatus (Mcr.lpmack.isSet before) (Mcr.frzack.isSet before) (Mcr.notrdy.isSet before) word

end Mcr

namespace Station

def reset : Station where
  memory := ((Memory.zero.put .mcr 0xD890000F).put .ctrl2 0x00B00000).put .fdCtrl 0x80000100
  stalled := false
  timerReads := 0

def stall (station : Station) : Station := { station with stalled := true }

def running (station : Station) : Bool :=
  let mcr := station.memory.get .mcr
  !Mcr.asksForLowPower mcr && !Mcr.asksForFreeze mcr

def layout (station : Station) : DataSize :=
  if Mcr.fden.isSet (station.memory.get .mcr) then
    .ofBits (FdCtrl.mbdsr0.get (station.memory.get .fdCtrl))
  else .bytes8

def activeBuffers (station : Station) : Nat :=
  min station.layout.bufferCount (Mcr.maxmb.get (station.memory.get .mcr) + 1)

def bufferOffset (station : Station) (buffer : Nat) : Nat :=
  ramOffset (buffer * station.layout.bufferWords)

def control (station : Station) (buffer : Nat) : UInt32 :=
  station.memory.read (station.bufferOffset buffer)

def ident (station : Station) (buffer : Nat) : UInt32 :=
  station.memory.read (station.bufferOffset buffer + 4)

def payloadWords (station : Station) (buffer : Nat) : List UInt32 :=
  (List.range station.layout.payloadWords).map fun number =>
    station.memory.read (station.bufferOffset buffer + 8 + 4 * number)

/-- What a write to a word of the buffer memory asks to be sent: the buffer whose control word it is,
if that now carries the code for transmission. -/
def request? (station : Station) (node ramWord : Nat) : Option Transfer :=
  let size := station.layout
  let buffer := ramWord / size.bufferWords
  if ramWord % size.bufferWords = 0 ∧ buffer < size.bufferCount ∧
      BufferCode.ofBits (MbCs.code.get (station.control buffer)) = .txData then
    some { sender := node
           buffer := buffer
           control := station.control buffer
           ident := station.ident buffer
           words := station.payloadWords buffer }
  else none

def accepts (station : Station) (transfer : Transfer) (codes : List BufferCode) (buffer : Nat) :
    Bool :=
  let mask := station.memory.get .rxMgMask &&& 0x1FFFFFFF
  codes.contains (.ofBits (MbCs.code.get (station.control buffer))) &&
    MbCs.ide.isSet (station.control buffer) == MbCs.ide.isSet transfer.control &&
    (station.ident buffer ^^^ transfer.ident) &&& mask == 0

def target? (station : Station) (transfer : Transfer) : Option Nat :=
  let buffers := List.range station.activeBuffers
  buffers.find? (station.accepts transfer [.rxEmpty]) <|>
    buffers.find? (station.accepts transfer [.rxFull, .rxOverrun])

def stamp (station : Station) (code : BufferCode) (control : UInt32) : UInt32 :=
  MbCs.timestamp.set (Timer.timer.get (station.memory.get .timer))
    (MbCs.code.set code.toBits control)

def raise (memory : Memory) (buffer : Nat) : Memory :=
  memory.put .iflag1 (memory.get .iflag1 ||| flagWord buffer)

def fill (station : Station) (transfer : Transfer) (buffer : Nat) : Station :=
  let code := if flagSet buffer (station.memory.get .iflag1) then .rxOverrun else .rxFull
  let words := (List.range station.layout.payloadWords).map fun number =>
    transfer.words.getD number 0
  let stored := station.memory.writeAll (station.bufferOffset buffer)
    (station.stamp code transfer.control :: transfer.ident :: words)
  { station with memory := raise stored buffer }

def tick (station : Station) : Checked Unit × Station :=
  let timer := station.memory.get .timer
  if timer = 0xFFFFFFFF then (.error .overflow, station)
  else (.ok (), { station with memory := station.memory.put .timer ((timer + 1) &&& 0xFFFF) })

def follows (station : Station) (transfer : Transfer) : Bool :=
  station.running &&
    (!MbCs.edl.isSet transfer.control || Mcr.fden.isSet (station.memory.get .mcr))

def hear (station : Station) (transfer : Transfer) : Checked Unit × Station :=
  if station.follows transfer then
    match station.target? transfer with
    | none => station.tick
    | some buffer => (station.fill transfer buffer).tick
  else (.ok (), station)

/-- The frame in a transmit buffer was sent. A buffer that sent a remote frame waits for the answer. -/
def complete (station : Station) (buffer : Nat) : Station :=
  let code := if MbCs.rtr.isSet (station.control buffer) then .rxEmpty else .txInactive
  let stored := station.memory.write (station.bufferOffset buffer)
    (station.stamp code (station.control buffer))
  { station with memory := raise stored buffer }

def read (station : Station) (offset : Nat) : UInt32 × Station :=
  let value := station.memory.read offset
  if offset = Register.timer.offset then
    (value, { station with timerReads := station.timerReads + 1 })
  else (value, station)

/-- A write to the configuration register is acknowledged, ones written to the interrupt flags clear
them, and any other word keeps what is written. -/
def write (station : Station) (offset : Nat) (value : UInt32) : Station :=
  let before := station.memory.read offset
  let stored :=
    if offset = Register.mcr.offset then
      if station.stalled then Mcr.unacknowledged before value else Mcr.acknowledged value
    else if offset = Register.iflag1.offset then before &&& ~~~value
    else value
  { station with memory := station.memory.write offset stored }

end Station

end BufferedCan
