/-!
Bit fields of a 32 bit word. A field is a run of bits that is read as a number and written with the
number cut to the field's width. Writing a field leaves every other bit of the word alone.
-/

namespace BufferedCan

structure Field where
  low : Nat
  width : Nat
  fits : low + width ≤ 32 := by decide
  deriving DecidableEq

namespace Field

abbrev bit (low : Nat) (fits : low + 1 ≤ 32 := by decide) : Field := ⟨low, 1, fits⟩

abbrev bits (high low : Nat) (fits : low + (high + 1 - low) ≤ 32 := by decide) : Field :=
  ⟨low, high + 1 - low, fits⟩

def size (field : Field) : Nat := 1 <<< field.width

def get (field : Field) (word : UInt32) : Nat :=
  (word.toNat >>> field.low) % field.size

def isSet (field : Field) (word : UInt32) : Bool :=
  field.get word != 0

def mask (field : Field) : UInt32 :=
  UInt32.ofNat ((field.size - 1) <<< field.low)

def set (field : Field) (value : Nat) (word : UInt32) : UInt32 :=
  (word &&& ~~~field.mask) ||| UInt32.ofNat ((value % field.size) <<< field.low)

def put (field : Field) (on : Bool) (word : UInt32) : UInt32 :=
  field.set on.toNat word

def covers (field : Field) (index : Nat) : Bool :=
  field.low ≤ index && index < field.low + field.width

def Disjoint (first second : Field) : Prop :=
  first.low + first.width ≤ second.low ∨ second.low + second.width ≤ first.low

instance (first second : Field) : Decidable (first.Disjoint second) :=
  inferInstanceAs (Decidable (_ ∨ _))

theorem testBit_get (field : Field) (word : UInt32) (index : Nat) :
    (field.get word).testBit index =
      (decide (index < field.width) && word.toNat.testBit (field.low + index)) := by
  simp [get, size, Nat.one_shiftLeft, Nat.testBit_mod_two_pow, Nat.testBit_shiftRight]

theorem get_lt (field : Field) (word : UInt32) : field.get word < field.size := by
  have positive : 0 < field.size := by
    rw [size, Nat.one_shiftLeft]
    exact Nat.two_pow_pos _
  exact Nat.mod_lt _ positive

theorem testBit_mask (field : Field) (index : Nat) :
    field.mask.toNat.testBit index = field.covers index := by
  have fits := field.fits
  have small : (2 ^ field.width - 1) <<< field.low < 2 ^ 32 := by
    rw [Nat.shiftLeft_eq]
    calc (2 ^ field.width - 1) * 2 ^ field.low
        < 2 ^ field.width * 2 ^ field.low :=
          Nat.mul_lt_mul_of_pos_right (Nat.sub_lt (Nat.two_pow_pos _) Nat.one_pos) (Nat.two_pow_pos _)
      _ = 2 ^ (field.low + field.width) := by rw [← Nat.pow_add, Nat.add_comm]
      _ ≤ 2 ^ 32 := Nat.pow_le_pow_right (by decide) fits
  rw [mask, size, Nat.one_shiftLeft, UInt32.toNat_ofNat_of_lt' small, Nat.testBit_shiftLeft, Nat.testBit_two_pow_sub_one]
  simp only [covers]
  by_cases above : field.low ≤ index
  · have shifted : index - field.low < field.width ↔ index < field.low + field.width := by omega
    simp [above, shifted]
  · simp [above]

theorem testBit_set (field : Field) (value : Nat) (word : UInt32) (index : Nat) :
    (field.set value word).toNat.testBit index =
      if field.covers index then value.testBit (index - field.low)
      else word.toNat.testBit index := by
  have fits := field.fits
  have small : (value % 2 ^ field.width) <<< field.low < 2 ^ 32 := by
    rw [Nat.shiftLeft_eq]
    calc value % 2 ^ field.width * 2 ^ field.low
        < 2 ^ field.width * 2 ^ field.low :=
          Nat.mul_lt_mul_of_pos_right (Nat.mod_lt _ (Nat.two_pow_pos _)) (Nat.two_pow_pos _)
      _ = 2 ^ (field.low + field.width) := by rw [← Nat.pow_add, Nat.add_comm]
      _ ≤ 2 ^ 32 := Nat.pow_le_pow_right (by decide) fits
  have complement : (~~~field.mask).toNat.testBit index =
      (decide (index < 32) && !field.covers index) := by
    have reach : UInt32.size - 1 - field.mask.toNat = 2 ^ 32 - (field.mask.toNat + 1) := by
      simp only [UInt32.size]
      omega
    rw [UInt32.toNat_not, reach, ← testBit_mask]
    exact Nat.testBit_two_pow_sub_succ (UInt32.toNat_lt _) index
  have inside : word.toNat.testBit index = true → index < 32 := by
    intro on
    apply Decidable.byContradiction
    intro beyond
    have bound : word.toNat < 2 ^ index :=
      Nat.lt_of_lt_of_le (UInt32.toNat_lt word) (Nat.pow_le_pow_right (by decide) (by omega))
    rw [Nat.testBit_lt_two_pow bound] at on
    exact Bool.false_ne_true on
  rw [set, size, Nat.one_shiftLeft, UInt32.toNat_or, UInt32.toNat_and, Nat.testBit_or,
    Nat.testBit_and, complement, UInt32.toNat_ofNat_of_lt' small, Nat.testBit_shiftLeft, Nat.testBit_mod_two_pow]
  cases covered : field.covers index with
  | true =>
      simp only [covers, Bool.and_eq_true, decide_eq_true_eq] at covered
      have below : index - field.low < field.width := by omega
      simp [covered.1, below]
  | false =>
      have apart : ¬ (field.low ≤ index ∧ index - field.low < field.width) := by
        simp only [covers, Bool.and_eq_false_iff, decide_eq_false_iff_not] at covered
        omega
      have dropped : (decide (field.low ≤ index) && (decide (index - field.low < field.width) &&
          value.testBit (index - field.low))) = false := by
        by_cases above : field.low ≤ index
        · have beyond : ¬ index - field.low < field.width := fun below => apart ⟨above, below⟩
          simp [beyond]
        · simp [above]
      cases on : word.toNat.testBit index with
      | true => simp [inside on, dropped]
      | false => simp [dropped]

theorem eq_of_testBit {first second : UInt32}
    (same : ∀ index, first.toNat.testBit index = second.toNat.testBit index) : first = second :=
  UInt32.toNat_inj.1 (Nat.eq_of_testBit_eq same)

theorem get_set (field : Field) (value : Nat) (word : UInt32) :
    field.get (field.set value word) = value % field.size := by
  apply Nat.eq_of_testBit_eq
  intro index
  rw [testBit_get, testBit_set, size, Nat.one_shiftLeft, Nat.testBit_mod_two_pow]
  by_cases below : index < field.width
  · simp [covers, below]
  · simp [below]

theorem get_set_of_disjoint {field other : Field} (apart : field.Disjoint other) (value : Nat)
    (word : UInt32) : field.get (other.set value word) = field.get word := by
  apply Nat.eq_of_testBit_eq
  intro index
  rw [testBit_get, testBit_get, testBit_set]
  by_cases below : index < field.width
  · have outside : other.covers (field.low + index) = false := by
      simp only [covers, Bool.and_eq_false_iff, decide_eq_false_iff_not]
      unfold Disjoint at apart
      omega
    simp [outside]
  · simp [below]

theorem set_get (field : Field) (word : UInt32) : field.set (field.get word) word = word := by
  apply eq_of_testBit
  intro index
  rw [testBit_set]
  cases covered : field.covers index with
  | true =>
      simp only [covers, Bool.and_eq_true, decide_eq_true_eq] at covered
      have below : index - field.low < field.width := by omega
      have position : field.low + (index - field.low) = index := by omega
      simp [testBit_get, below, position]
  | false => simp

theorem set_set (field : Field) (first second : Nat) (word : UInt32) :
    field.set second (field.set first word) = field.set second word := by
  apply eq_of_testBit
  intro index
  simp only [testBit_set]
  cases field.covers index <;> simp

theorem isSet_put (field : Field) (on : Bool) (word : UInt32) (wide : 0 < field.width) :
    field.isSet (field.put on word) = on := by
  have one : 1 < field.size := by
    rw [size, Nat.one_shiftLeft]
    exact Nat.one_lt_two_pow (by omega)
  cases on
  · simp [isSet, put, get_set]
  · simp [isSet, put, get_set, Nat.mod_eq_of_lt one]

theorem isSet_set_of_disjoint {field other : Field} (apart : field.Disjoint other) (value : Nat)
    (word : UInt32) : field.isSet (other.set value word) = field.isSet word := by
  rw [isSet, isSet, get_set_of_disjoint apart]

theorem get_put_of_disjoint {field other : Field} (apart : field.Disjoint other) (on : Bool)
    (word : UInt32) : field.get (other.put on word) = field.get word :=
  get_set_of_disjoint apart _ word

theorem isSet_put_of_disjoint {field other : Field} (apart : field.Disjoint other) (on : Bool)
    (word : UInt32) : field.isSet (other.put on word) = field.isSet word :=
  isSet_set_of_disjoint apart _ word

theorem isSet_put_bit (low : Nat) (fits : low + 1 ≤ 32) (on : Bool) (word : UInt32) :
    (Field.bit low fits).isSet ((Field.bit low fits).put on word) = on :=
  isSet_put _ on word Nat.one_pos

theorem get_set_of_lt {field : Field} {value : Nat} (small : value < field.size)
    (word : UInt32) : field.get (field.set value word) = value := by
  rw [get_set, Nat.mod_eq_of_lt small]

theorem get_zero (field : Field) : field.get 0 = 0 := by simp [get]

theorem isSet_bit (low : Nat) (fits : low + 1 ≤ 32) (word : UInt32) :
    (Field.bit low fits).isSet word = word.toNat.testBit low := by
  rw [isSet, get, size, Nat.shiftRight_eq_div_pow, Nat.testBit_eq_decide_div_mod_eq]
  change (word.toNat / 2 ^ low % 2 != 0) = _
  rcases Nat.mod_two_eq_zero_or_one (word.toNat / 2 ^ low) with zero | one
  · simp [zero]
  · simp [one]

end Field

end BufferedCan
