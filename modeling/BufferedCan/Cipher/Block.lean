import BufferedCan.Word.Bytes

/-!
Blocks of 16 bytes and what a block cipher is: a way to encrypt and to decrypt a block under a key.
-/

namespace BufferedCan

abbrev Block := Vector UInt8 16

namespace Block

def size : Nat := 16

def zero : Block := Vector.replicate 16 0

def ofBytes (bytes : List UInt8) : Block :=
  let values := bytes.toArray
  Vector.ofFn fun index => values.getD index 0

def ofWords (words : List UInt32) : Block := ofBytes (Word.unpackAll words)

def words (block : Block) : List UInt32 := Word.packAll block.toList

def xor (first second : Block) : Block := Vector.zipWith (· ^^^ ·) first second

theorem getElem_xor (first second : Block) (index : Nat) (bound : index < 16) :
    (first.xor second)[index] = first[index] ^^^ second[index] := by
  simp [xor]

theorem xor_xor_cancel (first second : Block) : (first.xor second).xor second = first := by
  apply Vector.ext
  intro index bound
  rw [getElem_xor, getElem_xor, UInt8.xor_assoc, UInt8.xor_self, UInt8.xor_zero]

theorem ofBytes_toList (block : Block) : ofBytes block.toList = block := by
  apply Vector.ext
  intro index bound
  simp [ofBytes]

theorem ofWords_words (block : Block) : ofWords block.words = block := by
  rw [ofWords, words, Word.unpackAll_packAll _ (by simp), ofBytes_toList]

end Block

structure BlockCipher where
  encrypt : Block → Block → Block
  decrypt : Block → Block → Block

def BlockCipher.Inverts (cipher : BlockCipher) : Prop :=
  ∀ key block, cipher.decrypt key (cipher.encrypt key block) = block

end BufferedCan
