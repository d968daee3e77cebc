import BufferedCan.Hardware.Memory

/-! What is read after a write, and the interrupt flags of a word. Registers and buffer memory do not
overlap, so a write to one leaves the other alone. -/

namespace BufferedCan

theorem testBit_flagWord {index : Nat} (position : Nat) (bound : index < 32) :
    (flagWord index).toNat.testBit position = decide (index = position) := by
  have small : 2 ^ index < UInt32.size := Nat.pow_lt_pow_right (by decide) bound
  rw [flagWord, Nat.one_shiftLeft, UInt32.toNat_ofNat_of_lt' small, Nat.testBit_two_pow]

theorem flagSet_raise {index : Nat} (other : Nat) (flags : UInt32) (bound : index < 32) :
    flagSet other (flags ||| flagWord index) = (flagSet other flags || decide (index = other)) := by
  rw [flagSet, UInt32.toNat_or, Nat.testBit_or, testBit_flagWord other bound, flagSet]

theorem flagSet_clear {index other : Nat} (flags : UInt32) (bound : index < 32)
    (otherBound : other < 32) :
    flagSet other (flags &&& ~~~flagWord index) =
      (flagSet other flags && !decide (index = other)) := by
  have reach : UInt32.size - 1 - (flagWord index).toNat =
      2 ^ 32 - ((flagWord index).toNat + 1) := by
    simp only [UInt32.size]
    omega
  have complement : (~~~flagWord index).toNat.testBit other = !decide (index = other) := by
    rw [UInt32.toNat_not, reach, Nat.testBit_two_pow_sub_succ (UInt32.toNat_lt _),
      testBit_flagWord other bound]
    simp [otherBound]
  rw [flagSet, UInt32.toNat_and, Nat.testBit_and, complement, flagSet]

namespace Memory

theorem read_write (memory : Memory) {offset : Nat} (query : Nat) (value : UInt32)
    (inside : contains offset = true) :
    (memory.write offset value).read query =
      if offset / 4 = query / 4 then value else memory.read query := by
  split
  next same =>
    have moved : (memory.write offset value).read query =
        (memory.write offset value).read offset := by
      simp only [read, same]
    rw [moved, read_write_self memory value inside]
  next apart => exact read_write_of_ne memory value apart

theorem contains_ramOffset {word : Nat} (bound : word < 738) :
    contains (ramOffset word) = true := by
  rw [contains, decide_eq_true_eq, ramOffset, blockWords]
  omega

theorem contains_rxMaskOffset {index : Nat} (bound : index < rxMaskCount) :
    contains (rxMaskOffset index) = true := by
  rw [contains, decide_eq_true_eq, rxMaskOffset, blockWords]
  rw [rxMaskCount] at bound
  omega

def ram (memory : Memory) (word : Nat) : UInt32 := memory.read (ramOffset word)

def rxMask (memory : Memory) (index : Nat) : UInt32 := memory.read (rxMaskOffset index)

def writeRam (memory : Memory) (word : Nat) (value : UInt32) : Memory :=
  memory.write (ramOffset word) value

theorem ram_writeRam (memory : Memory) {word : Nat} (query : Nat) (value : UInt32)
    (bound : word < 738) :
    (memory.writeRam word value).ram query = if word = query then value else memory.ram query := by
  rw [writeRam, ram, read_write _ _ _ (contains_ramOffset bound), ram]
  have injective : ramOffset word / 4 = ramOffset query / 4 ↔ word = query := by
    simp only [ramOffset]
    omega
  simp only [injective]

theorem offset_ne_ramOffset (register : Register) {word : Nat} (bound : word < 736) :
    register.offset / 4 ≠ ramOffset word / 4 := by
  simp only [ramOffset]
  cases register <;> simp only [Register.offset] <;> omega

theorem get_writeRam (memory : Memory) (register : Register) {word : Nat} (value : UInt32)
    (bound : word < 736) : (memory.writeRam word value).get register = memory.get register :=
  memory.read_write_of_ne value (offset_ne_ramOffset register bound).symm

theorem ram_put (memory : Memory) (register : Register) {word : Nat} (value : UInt32)
    (bound : word < 736) : (memory.put register value).ram word = memory.ram word :=
  memory.read_write_of_ne value (offset_ne_ramOffset register bound)

theorem get_put (memory : Memory) (register other : Register) (value : UInt32) :
    (memory.put register value).get other =
      if register = other then value else memory.get other := by
  split
  next same => rw [same, get_put_self]
  next apart => exact get_put_of_ne memory value apart

theorem writeAll_of_outside (memory : Memory) (word query : Nat) (values : List UInt32)
    (outside : query / 4 < word / 4 ∨ word / 4 + values.length ≤ query / 4) :
    (memory.writeAll word values).read query = memory.read query := by
  induction values generalizing memory word with
  | nil => rfl
  | cons value rest ih =>
      simp only [List.length_cons] at outside
      rw [writeAll, ih _ _ (by omega), read_write_of_ne _ _ (by omega)]

theorem ram_writeAll_inside (memory : Memory) (word number : Nat) (values : List UInt32)
    (inside : number < values.length) (bound : word + values.length ≤ 738) :
    (memory.writeAll (ramOffset word) values).ram (word + number) = values[number] := by
  induction values generalizing memory word number with
  | nil => simp at inside
  | cons value rest ih =>
      simp only [List.length_cons] at inside bound
      have next : ramOffset word + 4 = ramOffset (word + 1) := by
        simp only [ramOffset]
        omega
      rw [writeAll, next]
      cases number with
      | zero =>
          rw [ram, writeAll_of_outside _ _ _ _ (by simp only [ramOffset]; omega)]
          exact read_write_self _ _ (contains_ramOffset (by omega))
      | succ number =>
          rw [show word + (number + 1) = word + 1 + number by omega]
          exact ih _ _ _ (by omega) (by omega)

theorem ram_writeAll_outside (memory : Memory) (word query : Nat) (values : List UInt32)
    (outside : query < word ∨ word + values.length ≤ query) :
    (memory.writeAll (ramOffset word) values).ram query = memory.ram query := by
  apply writeAll_of_outside
  simp only [ramOffset]
  omega

theorem get_writeAll (memory : Memory) (register : Register) (word : Nat) (values : List UInt32)
    (bound : word + values.length ≤ 736) :
    (memory.writeAll (ramOffset word) values).get register = memory.get register := by
  apply writeAll_of_outside
  simp only [ramOffset]
  cases register <;> simp only [Register.offset] <;> omega

end Memory

end BufferedCan
