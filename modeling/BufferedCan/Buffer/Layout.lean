import BufferedCan.Register

/-!
The layout of the buffer memory. All buffers have the same size: a control word, an identifier word
and the payload, one buffer after the other. Bigger buffers mean fewer of them.
-/

namespace BufferedCan

inductive DataSize
  | bytes8
  | bytes16
  | bytes32
  | bytes64
  deriving DecidableEq, Repr

namespace DataSize

def bytes : DataSize → Nat
  | bytes8 => 8
  | bytes16 => 16
  | bytes32 => 32
  | bytes64 => 64

def payloadWords (size : DataSize) : Nat := size.bytes / 4

def bufferWords (size : DataSize) : Nat := 2 + size.payloadWords

def bufferCount (size : DataSize) : Nat := ramWords / size.bufferWords

def toBits : DataSize → Nat
  | bytes8 => 0
  | bytes16 => 1
  | bytes32 => 2
  | bytes64 => 3

def ofBits : Nat → DataSize
  | 0 => bytes8
  | 1 => bytes16
  | 2 => bytes32
  | _ => bytes64

theorem ofBits_toBits (size : DataSize) : ofBits size.toBits = size := by
  cases size <;> rfl

theorem bufferCount_le (size : DataSize) : size.bufferCount ≤ 32 := by
  cases size <;> decide

theorem bufferCount_pos (size : DataSize) : 0 < size.bufferCount := by
  cases size <;> decide

end DataSize

structure Buffer where
  size : DataSize
  index : Nat
  index_lt : index < size.bufferCount

namespace Buffer

def at? (size : DataSize) (index : Nat) : Option Buffer :=
  if bound : index < size.bufferCount then some ⟨size, index, bound⟩ else none

def controlWord (buffer : Buffer) : Nat := buffer.index * buffer.size.bufferWords

def identWord (buffer : Buffer) : Nat := buffer.controlWord + 1

def payloadWord (buffer : Buffer) (number : Nat) : Nat := buffer.controlWord + 2 + number

theorem controlWord_add_bufferWords_le (buffer : Buffer) :
    buffer.controlWord + buffer.size.bufferWords ≤ ramWords := by
  have bound := buffer.index_lt
  unfold DataSize.bufferCount at bound
  have whole : (buffer.index + 1) * buffer.size.bufferWords ≤ ramWords :=
    Nat.le_trans (Nat.mul_le_mul_right _ bound) (Nat.div_mul_le_self _ _)
  rw [Nat.add_mul, Nat.one_mul] at whole
  exact whole

theorem payloadWord_lt (buffer : Buffer) {number : Nat}
    (within : number < buffer.size.payloadWords) : buffer.payloadWord number < ramWords := by
  have room := buffer.controlWord_add_bufferWords_le
  unfold DataSize.bufferWords at room
  unfold payloadWord
  omega

end Buffer

end BufferedCan
