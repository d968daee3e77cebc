import BufferedCan.Cipher.Engine

/-! Bytes as blocks, and what a cipher makes of a message of many blocks. -/

namespace BufferedCan

theorem Word.packAll_append (left right : List UInt8) (whole : left.length % 4 = 0) :
    packAll (left ++ right) = packAll left ++ packAll right := by
  induction left using packAll.induct with
  | case1 first second third fourth rest ih =>
      simp only [List.length_cons] at whole
      simp only [List.cons_append, packAll]
      rw [ih (by omega)]
  | case2 short few =>
      rcases short with _ | ⟨first, _ | ⟨second, _ | ⟨third, _ | ⟨fourth, rest⟩⟩⟩⟩
      · rfl
      · simp at whole
      · simp at whole
      · simp at whole
      · exact absurd rfl (few first second third fourth rest)

theorem Word.unpackAll_append (left right : List UInt32) :
    unpackAll (left ++ right) = unpackAll left ++ unpackAll right :=
  List.flatMap_append

namespace Block

def join (blocks : List Block) : List UInt8 := blocks.flatMap Vector.toList

def split (bytes : List UInt8) : List Block :=
  (List.range (bytes.length / size)).map fun number => ofBytes (bytes.drop (size * number))

theorem join_cons (block : Block) (rest : List Block) :
    join (block :: rest) = block.toList ++ join rest := rfl

theorem join_append (first second : List Block) : join (first ++ second) = join first ++ join second :=
  List.flatMap_append

theorem length_join (blocks : List Block) : (join blocks).length = 16 * blocks.length := by
  induction blocks with
  | nil => rfl
  | cons block rest ih =>
      rw [join_cons, List.length_append, ih, Vector.length_toList, List.length_cons]
      omega

theorem take_join (blocks : List Block) (count : Nat) :
    (join blocks).take (16 * count) = join (blocks.take count) := by
  by_cases enough : count ≤ blocks.length
  · have cut : join blocks = join (blocks.take count) ++ join (blocks.drop count) := by
      rw [← join_append, List.take_append_drop]
    refine (congrArg _ cut).trans (List.take_left' ?_)
    rw [length_join, List.length_take, Nat.min_eq_left enough]
  · rw [List.take_of_length_le (by rw [length_join]; omega), List.take_of_length_le (by omega)]

theorem drop_join (blocks : List Block) (count : Nat) :
    (join blocks).drop (16 * count) = join (blocks.drop count) := by
  have both : join (blocks.take count) ++ join (blocks.drop count) = join blocks := by
    rw [← join_append, List.take_append_drop]
  have parts := (List.take_append_drop (16 * count) (join blocks)).trans both.symm
  rw [take_join] at parts
  exact List.append_cancel_left parts

theorem length_split (bytes : List UInt8) : (split bytes).length = bytes.length / 16 := by
  rw [split, List.length_map, List.length_range, size]

theorem toList_ofBytes (bytes : List UInt8) (filled : 16 ≤ bytes.length) :
    (ofBytes bytes).toList = bytes.take 16 := by
  apply List.ext_getElem
  · rw [Vector.length_toList, List.length_take, Nat.min_eq_left filled]
  · intro index inside _
    rw [Vector.length_toList] at inside
    simp [ofBytes, Nat.lt_of_lt_of_le inside filled]

theorem split_eq_cons (bytes : List UInt8) (filled : 16 ≤ bytes.length) :
    split bytes = ofBytes bytes :: split (bytes.drop 16) := by
  have more : bytes.length / 16 = (bytes.length - 16) / 16 + 1 := by omega
  simp only [split, size, more, List.range_succ_eq_map, List.map_cons, List.map_map, Nat.mul_zero,
    List.drop_zero, List.length_drop, List.cons.injEq, true_and]
  refine List.map_congr_left ?_
  intro number _
  simp only [Function.comp_apply, List.drop_drop]
  congr 2
  omega

theorem join_split (bytes : List UInt8) (whole : bytes.length % 16 = 0) :
    join (split bytes) = bytes := by
  by_cases filled : 16 ≤ bytes.length
  · have shorter : (bytes.drop 16).length = bytes.length - 16 := List.length_drop
    rw [split_eq_cons bytes filled, join_cons, toList_ofBytes bytes filled,
      join_split (bytes.drop 16) (by omega), List.take_append_drop]
  · have empty : bytes = [] := List.length_eq_zero_iff.mp (by omega)
    rw [empty]
    rfl
termination_by bytes.length

theorem packAll_join (blocks : List Block) : Word.packAll (join blocks) = blocks.flatMap words := by
  induction blocks with
  | nil => rfl
  | cons block rest ih =>
      rw [join_cons, Word.packAll_append _ _ (by rw [Vector.length_toList]), ih, List.flatMap_cons,
        words]

theorem length_words (block : Block) : block.words.length = 4 := by
  rw [words, Word.length_packAll, Vector.length_toList]

theorem toList_ofWords (values : List UInt32) (four : values.length = 4) :
    (ofWords values).toList = Word.unpackAll values := by
  have bytes : (Word.unpackAll values).length = 16 := by
    rw [Word.length_unpackAll, four]
  rw [ofWords, toList_ofBytes _ (by omega), List.take_of_length_le (by omega)]

end Block

namespace Engine

def cipherBlocks (cipher : BlockCipher) (key : Block) (mode : CipherMode) :
    Block → List Block → List Block × Block
  | chain, [] => ([], chain)
  | chain, block :: rest =>
    let first := cipherBlock cipher key mode chain block
    let later := cipherBlocks cipher key mode first.2 rest
    (first.1 :: later.1, later.2)

variable {cipher : BlockCipher} {key : Block} {mode : CipherMode}

theorem length_cipherBlocks (chain : Block) (blocks : List Block) :
    (cipherBlocks cipher key mode chain blocks).1.length = blocks.length := by
  induction blocks generalizing chain with
  | nil => rfl
  | cons block rest ih => rw [cipherBlocks, List.length_cons, ih, List.length_cons]

/-- A message may be cut anywhere: the second part goes on from where the first has left the chain. -/
theorem cipherBlocks_append (chain : Block) (first second : List Block) :
    cipherBlocks cipher key mode chain (first ++ second) =
      ((cipherBlocks cipher key mode chain first).1 ++
          (cipherBlocks cipher key mode (cipherBlocks cipher key mode chain first).2 second).1,
        (cipherBlocks cipher key mode (cipherBlocks cipher key mode chain first).2 second).2) := by
  induction first generalizing chain with
  | nil => rfl
  | cons block rest ih => rw [List.cons_append, cipherBlocks, ih, cipherBlocks, List.cons_append]

end Engine

end BufferedCan
