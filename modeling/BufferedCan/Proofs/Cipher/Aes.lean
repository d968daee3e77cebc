import BufferedCan.Cipher.Aes

/-! Decryption takes encryption back, for every key. Each step of a round has its inverse; the mixing of
columns has one because doubling a byte is linear. -/

namespace BufferedCan.Aes

theorem lookUp_inverse (byte : UInt8) :
    lookUp inverseSubstitution (lookUp substitution byte) = byte := by
  have every : ∀ value : Fin 256, lookUp inverseSubstitution
      (lookUp substitution (UInt8.ofFin value)) = UInt8.ofFin value := by decide +kernel
  exact every byte.toFin

theorem substitute_inverse (block : Block) :
    substitute inverseSubstitution (substitute substitution block) = block := by
  apply Vector.ext
  intro index bound
  simp only [substitute, Vector.getElem_map, lookUp_inverse]

theorem unshiftRows_shiftRows (block : Block) : unshiftRows (shiftRows block) = block := by
  apply Vector.ext
  intro index bound
  have row : (index + 12 * (index % 4)) % 16 % 4 = index % 4 := by omega
  have back : ((index + 12 * (index % 4)) % 16 + 4 * (index % 4)) % 16 = index := by omega
  simp only [unshiftRows, shiftRows, Vector.getElem_ofFn, row, back]

/-! The bytes of a column. -/

theorem xor_left_comm (first second third : UInt8) :
    first ^^^ (second ^^^ third) = second ^^^ (first ^^^ third) := by
  rw [← UInt8.xor_assoc, UInt8.xor_comm first, UInt8.xor_assoc]

theorem xor_cancel (first second : UInt8) : first ^^^ (first ^^^ second) = second := by
  rw [← UInt8.xor_assoc, UInt8.xor_self, UInt8.zero_xor]

theorem lt_half_iff (byte : UInt8) : byte < 0x80 ↔ byte.toBitVec.msb = false := by
  have half : (0x80 : UInt8).toNat = 2 ^ (8 - 1) := rfl
  rw [UInt8.lt_iff_toNat_lt, BitVec.msb_eq_decide, decide_eq_false_iff_not, Nat.not_le, half]
  rfl

theorem double_xor (first second : UInt8) :
    double (first ^^^ second) = double first ^^^ double second := by
  simp only [double, UInt8.shiftLeft_xor, lt_half_iff, UInt8.toBitVec_xor, BitVec.msb_xor]
  cases first.toBitVec.msb <;> cases second.toBitVec.msb <;>
    simp [UInt8.xor_assoc, UInt8.xor_comm, xor_left_comm]

def mixed (first second third fourth : UInt8) : UInt8 :=
  double first ^^^ double second ^^^ second ^^^ third ^^^ fourth

def unmixed (first second third fourth : UInt8) : UInt8 :=
  double (double (double (first ^^^ second ^^^ third ^^^ fourth))) ^^^
    double (double (first ^^^ third)) ^^^ double (first ^^^ second) ^^^ second ^^^ third ^^^ fourth

theorem unmixed_mixed (first second third fourth : UInt8) :
    unmixed (mixed first second third fourth) (mixed second third fourth first)
      (mixed third fourth first second) (mixed fourth first second third) = first := by
  -- What is doubled equally often cancels, but for the first byte.
  simp only [unmixed, mixed, double_xor]
  simp only [UInt8.xor_assoc, UInt8.xor_comm, xor_left_comm, xor_cancel, UInt8.xor_self,
    UInt8.xor_zero, UInt8.zero_xor]

theorem below_mixColumns (block : Block) (index : Fin 16) (down : Nat) :
    below (mixColumns block) index down =
      mixed (below block index down) (below block index (down + 1)) (below block index (down + 2))
        (below block index (down + 3)) := by
  have column : (4 * (index.val / 4) + (index.val + down) % 4) / 4 = index.val / 4 := by omega
  have row (further : Nat) : (4 * (index.val / 4) + (index.val + down) % 4 + further) % 4 =
      (index.val + (down + further)) % 4 := by omega
  simp only [below, mixColumns, Vector.getElem_ofFn, column, row, mixed]
  rfl

theorem below_add_four (block : Block) (index : Fin 16) (down : Nat) :
    below block index (down + 4) = below block index down := by
  have row : (index.val + (down + 4)) % 4 = (index.val + down) % 4 := by omega
  simp only [below, row]

theorem unmixColumns_mixColumns (block : Block) : unmixColumns (mixColumns block) = block := by
  apply Vector.ext
  intro index bound
  have own : below block ⟨index, bound⟩ 0 = block[index] := by
    have place : 4 * (index / 4) + (index + 0) % 4 = index := by omega
    simp only [below, place]
  have column := unmixed_mixed (below block ⟨index, bound⟩ 0) (below block ⟨index, bound⟩ 1)
    (below block ⟨index, bound⟩ 2) (below block ⟨index, bound⟩ 3)
  rw [own] at column
  rw [unmixColumns, Vector.getElem_ofFn]
  simp only [below_mixColumns]
  have wrapped := below_add_four block ⟨index, bound⟩
  simp only [Nat.zero_add, Nat.reduceAdd, wrapped 0, wrapped 1, wrapped 2, own]
  exact column

/-! The rounds. -/

theorem unround_round (key block : Block) : unround key (round key block) = block := by
  rw [unround, round, Block.xor_xor_cancel, unmixColumns_mixColumns, unshiftRows_shiftRows,
    substitute_inverse]

theorem unlastRound_lastRound (key block : Block) : unlastRound key (lastRound key block) = block := by
  rw [unlastRound, lastRound, Block.xor_xor_cancel, unshiftRows_shiftRows, substitute_inverse]

theorem decryptRounds_encryptRounds (keys : List Block) (block : Block) :
    decryptRounds keys (encryptRounds keys block) = block := by
  induction keys, block using encryptRounds.induct with
  | case1 block => rfl
  | case2 key block => exact unlastRound_lastRound key block
  | case3 key next rest block ih => rw [encryptRounds, decryptRounds, ih, unround_round]

theorem inverts : cipher.Inverts := by
  intro key block
  change (decryptRounds _ (encryptRounds _ (block.xor key))).xor key = block
  rw [decryptRounds_encryptRounds, Block.xor_xor_cancel]

end BufferedCan.Aes
