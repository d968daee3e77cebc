import BufferedCan.Register.Format

/-!
Buffer codes. The code in the control word of a message buffer says what the buffer is used for and
whether software or the controller owns it.
-/

namespace BufferedCan

inductive BufferCode
  | rxInactive
  | rxFull
  | rxEmpty
  /-- Receive buffer whose frame replaced one that was not read. -/
  | rxOverrun
  | rxAnswer
  | rxBusy (bits : Nat)
  | txInactive
  | txAbort
  | txData
  | txAnswer
  | reserved (bits : Nat)
  deriving DecidableEq, Repr

namespace BufferCode

def ofBits (bits : Nat) : BufferCode :=
  match bits % 16 with
  | 0x0 => rxInactive
  | 0x2 => rxFull
  | 0x4 => rxEmpty
  | 0x6 => rxOverrun
  | 0xA => rxAnswer
  | 0x8 => txInactive
  | 0x9 => txAbort
  | 0xC => txData
  | 0xE => txAnswer
  | 0x1 => rxBusy 0x1
  | 0x3 => rxBusy 0x3
  | 0x5 => rxBusy 0x5
  | 0x7 => rxBusy 0x7
  | other => reserved other

def toBits : BufferCode → Nat
  | rxInactive => 0x0
  | rxFull => 0x2
  | rxEmpty => 0x4
  | rxOverrun => 0x6
  | rxAnswer => 0xA
  | rxBusy bits => bits
  | txInactive => 0x8
  | txAbort => 0x9
  | txData => 0xC
  | txAnswer => 0xE
  | reserved bits => bits

def isInactive : BufferCode → Bool
  | rxInactive | txInactive => true
  | _ => false

def isBusy : BufferCode → Bool
  | rxBusy _ => true
  | _ => false

theorem toBits_ofBits (bits : Nat) : (ofBits bits).toBits = bits % 16 := by
  have small : bits % 16 < 16 := Nat.mod_lt _ (by decide)
  unfold ofBits
  generalize bits % 16 = low at small
  revert low
  decide

theorem ofBits_toBits_ofBits (bits : Nat) : ofBits (ofBits bits).toBits = ofBits bits := by
  rw [toBits_ofBits]
  simp only [ofBits, Nat.mod_mod]

def render : BufferCode → String
  | rxInactive => "RxInactive"
  | rxFull => "RxFull"
  | rxEmpty => "RxEmpty"
  | rxOverrun => "RxOverrun"
  | rxAnswer => "RxRanswer"
  | rxBusy bits => Text.tagged "RxBusy" bits
  | txInactive => "TxInactive"
  | txAbort => "TxAbort"
  | txData => "TxData"
  | txAnswer => "TxTanswer"
  | reserved bits => Text.tagged "Reserved" bits

end BufferCode

end BufferedCan
