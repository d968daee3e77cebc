import BufferedCan.Proofs.Cipher.Aes
import BufferedCan.Proofs.Cipher.Calls

/-! What was encrypted can be decrypted. In either mode the one operation takes back the other, and because
an operation depends on nothing that earlier ones have left in the engine, it does so at any later time. -/

namespace BufferedCan

inductive Chaining
  | single
  | chained (start : Block)

namespace Chaining

open CipherClient (Outcome)
open CipherOperation (chainEncrypt chainDecrypt)

def sealing : Chaining → CipherOperation
  | single => .encryptEcb
  | chained start => .encryptCbc start

def opening : Chaining → CipherOperation
  | single => .decryptEcb
  | chained start => .decryptCbc start

theorem chainDecrypt_chainEncrypt {encrypt decrypt : Block → Block}
    (inverse : ∀ block, decrypt (encrypt block) = block) (before : Block) (blocks : List Block) :
    chainDecrypt decrypt before (chainEncrypt encrypt before blocks) = blocks := by
  induction blocks generalizing before with
  | nil => rfl
  | cons block rest ih =>
      rw [chainEncrypt, chainDecrypt, inverse, Block.xor_xor_cancel, ih]

theorem opening_sealing {cipher : BlockCipher} (inverts : cipher.Inverts) (chaining : Chaining)
    (key : Block) (blocks : List Block) :
    chaining.opening.reference cipher key (chaining.sealing.reference cipher key blocks) = blocks := by
  cases chaining with
  | single =>
      have inverse : cipher.decrypt key ∘ cipher.encrypt key = id := funext (inverts key)
      change (blocks.map (cipher.encrypt key)).map (cipher.decrypt key) = blocks
      rw [List.map_map, inverse, List.map_id]
  | chained start => exact chainDecrypt_chainEncrypt (inverts key) start blocks

/-- Encrypt a message and later decrypt what it has become, after and between any other calls. -/
def session (chaining : Chaining) (slot : KeySlot) (earlier between : List CipherCall)
    (sealLimit openLimit : Nat) (message sealRoom openRoom : List UInt8) :
    Program commandWindow (Outcome × Outcome) := do
  Program.forEach earlier CipherCall.program
  let sealed ← chaining.sealing.program sealLimit slot message sealRoom
  Program.forEach between CipherCall.program
  let opened ← chaining.opening.program openLimit slot (sealed.output.take message.length) openRoom
  return (sealed, opened)

end Chaining

namespace Engine

open CipherClient (Outcome)

variable {engine : Engine} {slot : KeySlot} {key : Block}

def written (blocks : List Block) (room : List UInt8) : List UInt8 :=
  Block.join blocks ++ room.drop (16 * blocks.length)

theorem take_written (blocks : List Block) (room : List UInt8) :
    (written blocks room).take (16 * blocks.length) = Block.join blocks :=
  List.take_left' (Block.length_join blocks)

theorem drop_written (blocks : List Block) (room : List UInt8) :
    (written blocks room).drop (16 * blocks.length) = room.drop (16 * blocks.length) :=
  List.drop_left' (Block.length_join blocks)

theorem Holds.operate (cipher : BlockCipher) (holds : engine.Holds slot key)
    (operation : CipherOperation) (limit : Nat) {blocks : List Block} (waits : blocks ≠ [])
    (few : blocks.length < 0x10000) {room : List UInt8}
    (fits : 16 * blocks.length ≤ room.length) :
    ∃ after, (operation.program limit slot (Block.join blocks) room).runChecked
        (behindWindow cipher) engine =
          (.ok ⟨.ok (), written (operation.reference cipher key blocks) room⟩, after) ∧
      after.Holds slot key := by
  rw [← Block.length_join] at fits
  obtain ⟨chain, after, ran, served⟩ := CipherClient.yields_process limit operation.start?
    operation.isSome_start? holds.alive holds.held waits few fits
  rw [← operation.program_eq, operation.cipherBlocks_eq_reference] at ran
  exact ⟨after, ran, holds.served served⟩

end Engine

/-- An engine that answers and has a key in a slot gives back what it has encrypted with it, whatever else
was asked of it before and in between, successfully or not, as long as nobody loads another key there. -/
theorem Chaining.session_recovers {cipher : BlockCipher} (inverts : cipher.Inverts)
    (chaining : Chaining) (engine : Engine) (slot : KeySlot) (key : Block)
    (alive : engine.hung = false) (held : engine.key? slot.toByte.toNat = some key)
    (earlier between : List CipherCall) (spares : ∀ call ∈ earlier ++ between, call.Spares slot)
    (sealLimit openLimit : Nat) (message sealRoom openRoom : List UInt8) (count : Nat)
    (whole : message.length = 16 * count) (filled : 1 ≤ count) (few : count ≤ 65535)
    (sealFits : message.length ≤ sealRoom.length) (openFits : message.length ≤ openRoom.length) :
    ∃ ciphertext plaintext after, (chaining.session slot earlier between sealLimit openLimit message
          sealRoom openRoom).runChecked (Engine.behindWindow cipher) engine =
        (.ok (⟨.ok (), ciphertext⟩, ⟨.ok (), plaintext⟩), after) ∧
      plaintext.take message.length = message ∧
      plaintext.drop message.length = openRoom.drop message.length := by
  obtain ⟨blocks, joined, length⟩ :
      ∃ blocks, Block.join blocks = message ∧ blocks.length = count := by
    refine ⟨Block.split message, Block.join_split message (by omega), ?_⟩
    rw [Block.length_split]
    omega
  have waits : blocks ≠ [] := List.length_pos_iff.1 (by omega)
  have bytes : message.length = 16 * blocks.length := by rw [whole, length]
  have sealedLength : (chaining.sealing.reference cipher key blocks).length = blocks.length :=
    chaining.sealing.length_reference cipher key blocks
  have sealedWaits : chaining.sealing.reference cipher key blocks ≠ [] :=
    List.length_pos_iff.1 (by omega)
  have sealSpace : 16 * blocks.length ≤ sealRoom.length := by omega
  have openSpace : 16 * (chaining.sealing.reference cipher key blocks).length ≤ openRoom.length := by
    omega
  obtain ⟨first, before, ready⟩ := Engine.Holds.calls cipher ⟨alive, held⟩ earlier
    fun call member => spares call (List.mem_append_left between member)
  obtain ⟨second, sealRan, sealed⟩ :=
    ready.operate cipher chaining.sealing sealLimit waits (by omega) sealSpace
  obtain ⟨third, meanwhile, still⟩ := sealed.calls cipher between
    fun call member => spares call (List.mem_append_right earlier member)
  obtain ⟨last, openRan, -⟩ :=
    still.operate cipher chaining.opening openLimit sealedWaits (by omega) openSpace
  have ciphertext : (Engine.written (chaining.sealing.reference cipher key blocks) sealRoom).take
      message.length = Block.join (chaining.sealing.reference cipher key blocks) := by
    rw [bytes, ← sealedLength, Engine.take_written]
  rw [joined] at sealRan
  rw [← ciphertext, Chaining.opening_sealing inverts] at openRan
  refine ⟨Engine.written (chaining.sealing.reference cipher key blocks) sealRoom,
    Engine.written blocks openRoom, last, ?_, ?_, ?_⟩
  · rw [Chaining.session, Program.runChecked_bind_ok before, Program.runChecked_bind_ok sealRan,
      Program.runChecked_bind_ok meanwhile, Program.runChecked_bind_ok openRan]
    rfl
  · rw [bytes, Engine.take_written, joined]
  · rw [bytes, Engine.drop_written]

/-- The calls before it draw from an unseeded generator and use an empty slot. The ones in between load
the RAM key and pass a message that is no whole number of blocks. -/
theorem Chaining.session_recovers_ten_blocks :
    ∃ ciphertext plaintext after, ((Chaining.chained .zero).session .key1
        [⟨1, .random⟩, ⟨2, .operate .encryptEcb .key2 (List.replicate 16 3) (List.replicate 16 4)⟩,
          ⟨1, .seedRandom⟩]
        [⟨0, .loadPlainKey .zero⟩, ⟨1, .random⟩,
          ⟨1, .operate (.decryptCbc .zero) .key1 (List.replicate 5 3) []⟩]
        1 0 (List.replicate 160 7) (List.replicate 160 1) (List.replicate 200 1)).runChecked
          (Engine.behindWindow Aes.cipher) CipherOperation.provisioned =
        (.ok (⟨.ok (), ciphertext⟩, ⟨.ok (), plaintext⟩), after) ∧
      plaintext.take 160 = List.replicate 160 7 ∧ plaintext.drop 160 = List.replicate 40 1 := by
  have length : (List.replicate 160 (7 : UInt8)).length = 160 := List.length_replicate
  obtain ⟨ciphertext, plaintext, after, ran, first, rest⟩ := session_recovers Aes.inverts
    (.chained .zero) CipherOperation.provisioned .key1 .zero rfl rfl
    [⟨1, .random⟩, ⟨2, .operate .encryptEcb .key2 (List.replicate 16 3) (List.replicate 16 4)⟩,
      ⟨1, .seedRandom⟩]
    [⟨0, .loadPlainKey .zero⟩, ⟨1, .random⟩,
      ⟨1, .operate (.decryptCbc .zero) .key1 (List.replicate 5 3) []⟩]
    (fun _ _ _ _ => by decide) 1 0 (List.replicate 160 7) (List.replicate 160 1)
    (List.replicate 200 1) 10 length (by omega) (by omega)
    (by simp only [List.length_replicate]; omega) (by simp only [List.length_replicate]; omega)
  rw [length] at first rest
  refine ⟨ciphertext, plaintext, after, ran, first, ?_⟩
  rw [rest, List.drop_replicate]

end BufferedCan
