import BufferedCan.Cipher.Aes
import BufferedCan.Proofs.Cipher.Chunks

/-! The operations that software asks for, and what they are by definition: in one mode every block is
ciphered on its own, in the other it is chained to the block before it. How a message is cut into commands
shows only in how many there are. -/

namespace BufferedCan

inductive CipherOperation
  | encryptEcb
  | decryptEcb
  | encryptCbc (start : Block)
  | decryptCbc (start : Block)

namespace CipherOperation

open CipherClient (Outcome)

def program (limit : Nat) (slot : KeySlot) (input output : List UInt8) :
    CipherOperation → Program commandWindow Outcome
  | encryptEcb => CipherClient.encryptEcb limit slot input output
  | decryptEcb => CipherClient.decryptEcb limit slot input output
  | encryptCbc start => CipherClient.encryptCbc limit slot start input output
  | decryptCbc start => CipherClient.decryptCbc limit slot start input output

def chainEncrypt (encrypt : Block → Block) : Block → List Block → List Block
  | _, [] => []
  | before, block :: rest =>
    encrypt (block.xor before) :: chainEncrypt encrypt (encrypt (block.xor before)) rest

def chainDecrypt (decrypt : Block → Block) : Block → List Block → List Block
  | _, [] => []
  | before, block :: rest => (decrypt block).xor before :: chainDecrypt decrypt block rest

def reference (cipher : BlockCipher) (key : Block) (blocks : List Block) :
    CipherOperation → List Block
  | encryptEcb => blocks.map (cipher.encrypt key)
  | decryptEcb => blocks.map (cipher.decrypt key)
  | encryptCbc start => chainEncrypt (cipher.encrypt key) start blocks
  | decryptCbc start => chainDecrypt (cipher.decrypt key) start blocks

/-- The commands for so many blocks: seven blocks in each, but six behind a start value. -/
def commandCount (count : Nat) : CipherOperation → Nat
  | encryptEcb | decryptEcb => (count + 6) / 7
  | encryptCbc _ | decryptCbc _ => 1 + (count - 6 + 6) / 7

def mode : CipherOperation → Engine.CipherMode
  | encryptEcb => ⟨true, false⟩
  | decryptEcb => ⟨false, false⟩
  | encryptCbc _ => ⟨true, true⟩
  | decryptCbc _ => ⟨false, true⟩

def start? : CipherOperation → Option Block
  | encryptEcb | decryptEcb => none
  | encryptCbc start | decryptCbc start => some start

theorem program_eq (operation : CipherOperation) (limit : Nat) (slot : KeySlot)
    (input output : List UInt8) :
    operation.program limit slot input output =
      CipherClient.process limit operation.mode.command slot operation.start? input output := by
  cases operation <;> rfl

theorem isSome_start? (operation : CipherOperation) :
    operation.start?.isSome = operation.mode.chained := by
  cases operation <;> rfl

theorem commandCount_eq (operation : CipherOperation) {count : Nat} (filled : 1 ≤ count) :
    CipherClient.commandCount operation.start? count = operation.commandCount count := by
  cases operation <;>
    simp only [CipherClient.commandCount, CipherClient.frontPage, start?, commandCount,
      Option.isSome_none, Option.isSome_some, Bool.false_eq_true, if_true, if_false] <;>
    omega

theorem cipherBlocks_eq_reference (operation : CipherOperation) (cipher : BlockCipher)
    (key chain : Block) (blocks : List Block) :
    (Engine.cipherBlocks cipher key operation.mode (operation.start?.getD chain) blocks).1 =
      operation.reference cipher key blocks := by
  cases operation with
  | encryptEcb =>
      induction blocks generalizing chain with
      | nil => rfl
      | cons block rest ih => exact congrArg (_ :: ·) (ih chain)
  | decryptEcb =>
      induction blocks generalizing chain with
      | nil => rfl
      | cons block rest ih => exact congrArg (_ :: ·) (ih chain)
  | encryptCbc start =>
      induction blocks generalizing start with
      | nil => rfl
      | cons block rest ih => exact congrArg (_ :: ·) (ih (cipher.encrypt key (block.xor start)))
  | decryptCbc start =>
      induction blocks generalizing start with
      | nil => rfl
      | cons block rest ih => exact congrArg (_ :: ·) (ih block)

theorem length_reference (operation : CipherOperation) (cipher : BlockCipher) (key : Block)
    (blocks : List Block) : (operation.reference cipher key blocks).length = blocks.length := by
  rw [← operation.cipherBlocks_eq_reference cipher key Block.zero, Engine.length_cipherBlocks]

/-- Whatever earlier operations have left behind in the window and in the engine: with a key in the slot
the output buffer begins with the whole message as the definition has it and goes on as before, and the
message takes as few commands as it can. Without a key the output buffer stays as it is. -/
theorem program_eq_reference (cipher : BlockCipher) (engine : Engine) (alive : engine.hung = false)
    (operation : CipherOperation) (limit : Nat) (slot : KeySlot) (input output : List UInt8)
    (count : Nat) (whole : input.length = 16 * count) (filled : 1 ≤ count) (few : count ≤ 65535)
    (room : input.length ≤ output.length) :
    (∀ key, engine.key? slot.toByte.toNat = some key →
      ∃ after result, (operation.program limit slot input output).runChecked
          (Engine.behindWindow cipher) engine = (.ok ⟨.ok (), result⟩, after) ∧
        result.take (16 * count) = Block.join (operation.reference cipher key (Block.split input)) ∧
        result.drop (16 * count) = output.drop (16 * count) ∧
        after.commands = engine.commands + operation.commandCount count) ∧
    (engine.key? slot.toByte.toNat = none →
      ∃ after, (operation.program limit slot input output).runChecked
          (Engine.behindWindow cipher) engine = (.ok ⟨.error .keyEmpty, output⟩, after)) := by
  have joined : Block.join (Block.split input) = input := Block.join_split input (by omega)
  have length : (Block.split input).length = count := by
    rw [Block.length_split]
    omega
  have waits : Block.split input ≠ [] := by
    rw [← List.length_pos_iff]
    omega
  have fits : (Block.join (Block.split input)).length ≤ output.length := by rwa [joined]
  have brief : (Block.split input).length < 0x10000 := by omega
  constructor
  · intro key held
    obtain ⟨chain, after, ran, served⟩ := CipherClient.yields_process limit operation.start?
      operation.isSome_start? alive held waits brief fits
    have outputs : (Block.join (operation.reference cipher key (Block.split input))).length =
        16 * count := by
      rw [Block.length_join, length_reference, length]
    rw [joined, ← program_eq, operation.cipherBlocks_eq_reference, CipherClient.produced,
      List.reverse_nil, List.nil_append, length_reference, length] at ran
    refine ⟨after, _, ran, List.take_left' outputs, List.drop_left' outputs, ?_⟩
    · rw [served.commands, length, operation.commandCount_eq filled]
  · intro missing
    obtain ⟨after, ran⟩ := CipherClient.run_process_keyEmpty cipher operation.mode limit
      operation.start? operation.isSome_start? alive missing waits brief fits
    rw [joined, ← program_eq] at ran
    exact ⟨after, ran⟩

def provisioned : Engine := Engine.reset.setKey KeySlot.key1.toByte.toNat .zero

theorem provisioned_encryptCbc :
    ∃ after result, ((encryptCbc .zero).program 1 .key1 (List.replicate 160 0)
        (List.replicate 200 1)).runChecked (Engine.behindWindow Aes.cipher) provisioned =
          (.ok ⟨.ok (), result⟩, after) ∧
      result.take 160 = Block.join ((encryptCbc .zero).reference Aes.cipher .zero
        (Block.split (List.replicate 160 0))) ∧
      result.drop 160 = List.replicate 40 1 ∧ after.commands = 2 := by
  have both := program_eq_reference Aes.cipher provisioned rfl (encryptCbc .zero) 1 .key1
    (List.replicate 160 0) (List.replicate 200 1) 10 (List.length_replicate ..) (by omega) (by omega)
    (by simp only [List.length_replicate]; omega)
  obtain ⟨after, result, ran, first, rest, commands⟩ := both.1 .zero rfl
  refine ⟨after, result, ran, first, ?_, commands⟩
  rw [rest, List.drop_replicate]

end CipherOperation

end BufferedCan
