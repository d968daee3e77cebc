import BufferedCan.Word.Field

/-!
The register map of the controller: where each register, each word of the buffer memory and each
individual receive mask lies, and the bit fields of the words kept there.
-/

namespace BufferedCan

inductive Register
  | mcr
  | ctrl1
  | timer
  | rxMgMask
  | ecr
  | esr1
  | imask1
  /-- Interrupt flags, one bit for each buffer; writing a one clears the flag. -/
  | iflag1
  | ctrl2
  | cbt
  | fdCtrl
  | fdCbt
  deriving DecidableEq, Repr

def Register.offset : Register → Nat
  | mcr => 0x00
  | ctrl1 => 0x04
  | timer => 0x08
  | rxMgMask => 0x10
  | ecr => 0x1C
  | esr1 => 0x20
  | imask1 => 0x28
  | iflag1 => 0x30
  | ctrl2 => 0x34
  | cbt => 0x50
  | fdCtrl => 0xC00
  | fdCbt => 0xC04

def blockWords : Nat := 770

def ramWords : Nat := 128

def ramOffset (word : Nat) : Nat := 0x80 + 4 * word

def rxMaskCount : Nat := 32

def rxMaskOffset (index : Nat) : Nat := 0x880 + 4 * index

theorem Register.offset_injective {first second : Register}
    (same : first.offset = second.offset) : first = second := by
  revert same
  cases first <;> cases second <;> decide

namespace Mcr

abbrev mdis : Field := .bit 31
abbrev frz : Field := .bit 30
abbrev rfen : Field := .bit 29
abbrev halt : Field := .bit 28
abbrev notrdy : Field := .bit 27
abbrev softrst : Field := .bit 25
abbrev frzack : Field := .bit 24
abbrev supv : Field := .bit 23
abbrev lpmack : Field := .bit 20
abbrev srxdis : Field := .bit 17
abbrev irmq : Field := .bit 16
abbrev aen : Field := .bit 12
abbrev fden : Field := .bit 11
abbrev maxmb : Field := .bits 6 0

end Mcr

namespace Ctrl1

abbrev presdiv : Field := .bits 31 24
abbrev rjw : Field := .bits 23 22
abbrev pseg1 : Field := .bits 21 19
abbrev pseg2 : Field := .bits 18 16
abbrev boffmsk : Field := .bit 15
abbrev errmsk : Field := .bit 14
abbrev clksrc : Field := .bit 13
abbrev lpb : Field := .bit 12
abbrev smp : Field := .bit 7
abbrev boffrec : Field := .bit 6
abbrev tsyn : Field := .bit 5
abbrev lbuf : Field := .bit 4
abbrev lom : Field := .bit 3
abbrev propseg : Field := .bits 2 0

end Ctrl1

namespace Timer

abbrev timer : Field := .bits 15 0

end Timer

namespace RxMgMask

abbrev mg : Field := .bits 31 0

end RxMgMask

namespace Ecr

abbrev rxerrcntFast : Field := .bits 31 24
abbrev txerrcntFast : Field := .bits 23 16
abbrev rxerrcnt : Field := .bits 15 8
abbrev txerrcnt : Field := .bits 7 0

end Ecr

namespace Esr1

abbrev errovr : Field := .bit 21
abbrev errintFast : Field := .bit 20
abbrev boffdoneint : Field := .bit 19
abbrev synch : Field := .bit 18
abbrev twrnint : Field := .bit 17
abbrev rwrnint : Field := .bit 16
abbrev bit1err : Field := .bit 15
abbrev bit0err : Field := .bit 14
abbrev ackerr : Field := .bit 13
abbrev crcerr : Field := .bit 12
abbrev frmerr : Field := .bit 11
abbrev stferr : Field := .bit 10
abbrev txwrn : Field := .bit 9
abbrev rxwrn : Field := .bit 8
abbrev idle : Field := .bit 7
abbrev tx : Field := .bit 6
abbrev fltconf : Field := .bits 5 4
abbrev rx : Field := .bit 3
abbrev boffint : Field := .bit 2
abbrev errint : Field := .bit 1

end Esr1

namespace Ctrl2

abbrev mrp : Field := .bit 18
abbrev rrs : Field := .bit 17
abbrev eacen : Field := .bit 16
abbrev isocanfden : Field := .bit 12

end Ctrl2

namespace Cbt

abbrev btf : Field := .bit 31
abbrev epresdiv : Field := .bits 30 21
abbrev erjw : Field := .bits 20 16
abbrev epropseg : Field := .bits 15 10
abbrev epseg1 : Field := .bits 9 5
abbrev epseg2 : Field := .bits 4 0

end Cbt

namespace FdCtrl

abbrev fdrate : Field := .bit 31
abbrev mbdsr0 : Field := .bits 17 16
abbrev tdcen : Field := .bit 15
abbrev tdcfail : Field := .bit 14
abbrev tdcoff : Field := .bits 12 8
abbrev tdcval : Field := .bits 5 0

end FdCtrl

namespace FdCbt

abbrev fpresdiv : Field := .bits 29 20
abbrev frjw : Field := .bits 18 16
abbrev fpropseg : Field := .bits 14 10
abbrev fpseg1 : Field := .bits 7 5
abbrev fpseg2 : Field := .bits 2 0

end FdCbt

-- The control and status word of a message buffer.
namespace MbCs

abbrev edl : Field := .bit 31
abbrev brs : Field := .bit 30
abbrev esi : Field := .bit 29
abbrev code : Field := .bits 27 24
abbrev srr : Field := .bit 22
abbrev ide : Field := .bit 21
abbrev rtr : Field := .bit 20
abbrev dlc : Field := .bits 19 16
abbrev timestamp : Field := .bits 15 0

end MbCs

-- The identifier word of a message buffer.
namespace MbId

abbrev prio : Field := .bits 31 29
abbrev stdId : Field := .bits 28 18
abbrev extId : Field := .bits 28 0

end MbId

def flagWord (index : Nat) : UInt32 := UInt32.ofNat (1 <<< index)

def flagWord? (index : Nat) : Option UInt32 :=
  if index < 32 then some (flagWord index) else none

def flagSet (index : Nat) (word : UInt32) : Bool := word.toNat.testBit index

end BufferedCan
