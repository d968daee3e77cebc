import BufferedCan.Cipher.Window
import BufferedCan.Word.Bytes

/-!
Commands of the cipher engine: what can be asked for, which key slot it uses, the header word that
says so, and the ways in which a command fails.
-/

namespace BufferedCan

inductive CipherCommand
  | encryptEcb
  | encryptCbc
  | decryptEcb
  | decryptCbc
  | loadPlainKey
  | seedRandom
  | random
  deriving DecidableEq, Repr

namespace CipherCommand

def toByte : CipherCommand → UInt8
  | encryptEcb => 0x01
  | encryptCbc => 0x02
  | decryptEcb => 0x03
  | decryptCbc => 0x04
  | loadPlainKey => 0x08
  | seedRandom => 0x0A
  | random => 0x0C

def ofByte? : UInt8 → Option CipherCommand
  | 0x01 => some encryptEcb
  | 0x02 => some encryptCbc
  | 0x03 => some decryptEcb
  | 0x04 => some decryptCbc
  | 0x08 => some loadPlainKey
  | 0x0A => some seedRandom
  | 0x0C => some random
  | _ => none

theorem ofByte?_toByte (command : CipherCommand) : ofByte? command.toByte = some command := by
  cases command <;> rfl

end CipherCommand

inductive KeySlot
  | secretKey
  | masterEcu
  | bootMacKey
  | bootMac
  | key1
  | key2
  | key3
  | key4
  | key5
  | key6
  | key7
  | key8
  | key9
  | key10
  | ramKey
  | key11
  | key12
  | key13
  | key14
  | key15
  | key16
  | key17
  deriving DecidableEq, Repr

namespace KeySlot

def toByte : KeySlot → UInt8
  | secretKey => 0x00
  | masterEcu => 0x01
  | bootMacKey => 0x02
  | bootMac => 0x03
  | key1 => 0x04
  | key2 => 0x05
  | key3 => 0x06
  | key4 => 0x07
  | key5 => 0x08
  | key6 => 0x09
  | key7 => 0x0A
  | key8 => 0x0B
  | key9 => 0x0C
  | key10 => 0x0D
  | ramKey => 0x0F
  | key11 => 0x14
  | key12 => 0x15
  | key13 => 0x16
  | key14 => 0x17
  | key15 => 0x18
  | key16 => 0x19
  | key17 => 0x1A

def all : List KeySlot :=
  [secretKey, masterEcu, bootMacKey, bootMac, key1, key2, key3, key4, key5, key6, key7, key8, key9,
    key10, ramKey, key11, key12, key13, key14, key15, key16, key17]

theorem mem_all (slot : KeySlot) : slot ∈ all := by
  cases slot <;> decide

theorem toByte_injective {first second : KeySlot} (same : first.toByte = second.toByte) :
    first = second := by
  revert same
  cases first <;> cases second <;> decide

theorem toByte_lt (slot : KeySlot) : slot.toByte.toNat < 32 := by
  cases slot <;> decide

end KeySlot

inductive CipherError
  | sequenceError
  | keyNotAvailable
  | keyInvalid
  | keyEmpty
  | noSecureBoot
  | keyWriteProtected
  | keyUpdateError
  | randomNotSeeded
  | noDebugging
  | memoryFailure
  | generalError
  | unknown (status : Nat)
  | timeout
  /-- The input is empty or no whole number of blocks, or does not fit the output or one operation. -/
  | invalidLength
  deriving DecidableEq, Repr

namespace CipherError

def ofStatus? : Nat → Option CipherError
  | 0x001 => none
  | 0x002 => some sequenceError
  | 0x004 => some keyNotAvailable
  | 0x008 => some keyInvalid
  | 0x010 => some keyEmpty
  | 0x020 => some noSecureBoot
  | 0x040 => some keyWriteProtected
  | 0x080 => some keyUpdateError
  | 0x100 => some randomNotSeeded
  | 0x200 => some noDebugging
  | 0x400 => some memoryFailure
  | 0x800 => some generalError
  | other => some (unknown other)

end CipherError

inductive Sequence
  | first
  | subsequent
  deriving DecidableEq, Repr

def Sequence.toByte : Sequence → UInt8
  | first => 0
  | subsequent => 1

def commandHeader (command : CipherCommand) (sequence : Sequence) (slot : KeySlot) : UInt32 :=
  Word.ofBytes command.toByte 0 sequence.toByte slot.toByte

end BufferedCan
