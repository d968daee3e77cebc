import BufferedCan.Controller.Access

/-!
Plain word memory for a register block. An offset that is no multiple of four means the word that it
falls into; beyond the end there is nothing: such words read as zero and are not written.
-/

namespace BufferedCan

structure Memory where
  words : Vector UInt32 blockWords
  deriving DecidableEq

namespace Memory

def zero : Memory := ⟨Vector.replicate blockWords 0⟩

def contains (offset : Nat) : Bool := offset / 4 < blockWords

def read (memory : Memory) (offset : Nat) : UInt32 :=
  memory.words[offset / 4]?.getD 0

def write (memory : Memory) (offset : Nat) (value : UInt32) : Memory :=
  ⟨memory.words.setIfInBounds (offset / 4) value⟩

theorem read_write_self (memory : Memory) {offset : Nat} (value : UInt32)
    (inside : contains offset = true) : (memory.write offset value).read offset = value := by
  simp only [contains, decide_eq_true_eq] at inside
  simp [read, write, inside]

theorem read_write_of_ne (memory : Memory) {offset other : Nat} (value : UInt32)
    (apart : offset / 4 ≠ other / 4) : (memory.write offset value).read other = memory.read other := by
  simp [read, write, apart]

def get (memory : Memory) (register : Register) : UInt32 := memory.read register.offset

def put (memory : Memory) (register : Register) (value : UInt32) : Memory :=
  memory.write register.offset value

theorem get_put_self (memory : Memory) (register : Register) (value : UInt32) :
    (memory.put register value).get register = value :=
  memory.read_write_self value (by cases register <;> decide)

theorem get_put_of_ne (memory : Memory) {register other : Register} (value : UInt32)
    (apart : register ≠ other) : (memory.put register value).get other = memory.get other := by
  apply memory.read_write_of_ne value
  revert apart
  cases register <;> cases other <;> decide

def writeAll (memory : Memory) (offset : Nat) : List UInt32 → Memory
  | [] => memory
  | value :: rest => (memory.write offset value).writeAll (offset + 4) rest

def access : Handler registers Memory
  | .read offset, memory => (memory.read offset, memory)
  | .write offset value, memory => ((), memory.write offset value)

def changes (before after : Memory) : List (Nat × UInt32) :=
  (List.range blockWords).filterMap fun index =>
    let value := after.read (4 * index)
    if before.read (4 * index) = value then none else some (index, value)

end Memory

end BufferedCan
