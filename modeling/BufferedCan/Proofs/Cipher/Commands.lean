import BufferedCan.Proofs.Cipher.Pages

/-! What a cipher command does. The first command of an operation finds the number of blocks in the
window, and for chaining the block to start from; later ones find both in the engine. Either way the
command ciphers the pages that hold data and leaves the rest of the operation to the next one. -/

namespace BufferedCan

theorem Engine.cipherPages_eq (cipher : BlockCipher) (key : Block) (mode : CipherMode)
    (engine : Engine) {first count : Nat} (fits : first + count ≤ 8) :
    ∃ window, cipherPages cipher key mode count first engine =
        { engine with
          window := window
          chain := (cipherBlocks cipher key mode engine.chain (engine.window.pages first count)).2 } ∧
      window.pages first count =
        (cipherBlocks cipher key mode engine.chain (engine.window.pages first count)).1 ∧
      ∀ word, word < 4 * first → window.read word = engine.window.read word := by
  induction count generalizing engine first with
  | zero => exact ⟨engine.window, rfl, rfl, fun _ _ => rfl⟩
  | succ count ih =>
      have read : engine.page first = engine.window.page first := rfl
      rw [cipherPages, Window.pages, cipherBlocks, read]
      generalize cipherBlock cipher key mode engine.chain (engine.window.page first) = pass
      obtain ⟨output, next⟩ := pass
      -- The later pages still hold their input when this one is written back.
      have behind : (engine.setPage first output).window.pages (first + 1) count =
          engine.window.pages (first + 1) count := by
        refine Window.pages_congr ?_
        intro word low _
        refine Window.read_writeAll_of_outside (.inr ?_)
        rw [Block.length_words]
        omega
      obtain ⟨window, made, pages, others⟩ :=
        ih { engine.setPage first output with chain := next }
          (show first + 1 + count ≤ 8 by omega)
      rw [behind] at made pages
      refine ⟨window, made, ?_, ?_⟩
      · have own : window.page first = output := by
          have same : window.page first = (engine.setPage first output).window.page first :=
            Window.page_congr fun word _ high => others word (by omega)
          rw [same]
          exact Window.page_writeAll _ _ (by omega)
        rw [Window.pages, pages, own]
      · intro word low
        rw [others word (by omega)]
        exact Window.read_writeAll_of_outside (.inl low)

theorem bytes_commandHeader (command : CipherCommand) (sequence : Sequence) (slot : KeySlot) :
    Word.bytes (commandHeader command sequence slot) =
      [command.toByte, 0, sequence.toByte, slot.toByte] :=
  Word.bytes_ofBytes _ _ _ _

theorem CommandStatus.toNat_lt (status : CommandStatus) : status.toNat < 0x10000 := by
  cases status <;> decide

theorem CommandStatus.upper_half (status : CommandStatus) (word : UInt32) :
    ((word &&& 0xFFFF) ||| UInt32.ofNat (status.toNat * 0x10000)).toNat / 0x10000 = status.toNat := by
  have small := status.toNat_lt
  have halve (value : Nat) : value / 0x10000 = value >>> 16 :=
    (Nat.shiftRight_eq_div_pow value 16).symm
  have upper : (UInt32.ofNat (status.toNat * 0x10000)).toNat = status.toNat <<< 16 := by
    rw [UInt32.toNat_ofNat_of_lt' (by simp only [UInt32.size]; omega), Nat.shiftLeft_eq]
  have lower : (word &&& 0xFFFF).toNat >>> 16 = 0 := by
    have bound : (word &&& 0xFFFF).toNat ≤ 0xFFFF := by
      rw [UInt32.toNat_and]
      exact Nat.and_le_right
    rw [← halve]
    omega
  rw [halve, UInt32.toNat_or, upper, Nat.shiftRight_or_distrib, lower, Nat.zero_or,
    Nat.shiftLeft_shiftRight]

namespace Engine

def CipherMode.command : CipherMode → CipherCommand
  | ⟨true, false⟩ => .encryptEcb
  | ⟨false, false⟩ => .decryptEcb
  | ⟨true, true⟩ => .encryptCbc
  | ⟨false, true⟩ => .decryptCbc

theorem runCommand_command (cipher : BlockCipher) (mode : CipherMode) (sequence slot : UInt8)
    (engine : Engine) :
    runCommand cipher mode.command.toByte sequence slot engine =
      runCipher cipher mode sequence slot engine := by
  obtain ⟨encrypts, chained⟩ := mode
  cases encrypts <;> cases chained <;> rfl

/-- The engine is about to cipher the pages from `page` on. Of its operation `total` blocks are left, and
the first of them is chained to `chain`. -/
inductive Due (mode : CipherMode) (engine : Engine) : Sequence → (page total : Nat) → Block → Prop
  | single {total : Nat} (alone : mode.chained = false)
      (asked : (engine.window.read 3).toNat % 0x10000 = total) :
      Due mode engine .first 1 total engine.chain
  | chained {total : Nat} (linked : mode.chained = true)
      (asked : (engine.window.read 3).toNat % 0x10000 = total) :
      Due mode engine .first 2 total (engine.window.page 1)
  | later (waits : engine.remaining ≠ 0) :
      Due mode engine .subsequent 1 engine.remaining engine.chain

variable {cipher : BlockCipher} {mode : CipherMode} {engine : Engine} {sequence : Sequence}
  {page total : Nat} {chain : Block}

theorem Due.page_cases (due : engine.Due mode sequence page total chain) : page = 1 ∨ page = 2 := by
  cases due with
  | single => exact .inl rfl
  | chained => exact .inr rfl
  | later => exact .inl rfl

theorem Due.congr (due : engine.Due mode sequence page total chain) {window : Window}
    (same : ∀ word, 0 < word → word < 4 * page → window.read word = engine.window.read word)
    (commands : Nat) :
    { engine with window := window, commands := commands }.Due mode sequence page total chain := by
  cases due with
  | single alone asked => exact .single alone (by rw [← asked, same 3 (by omega) (by omega)])
  | chained linked asked =>
      have start : window.page 1 = engine.window.page 1 :=
        Window.page_congr fun word low high => same word (by omega) (by omega)
      rw [← start]
      exact .chained linked (by rw [← asked, same 3 (by omega) (by omega)])
  | later waits => exact .later waits

theorem Due.load (due : engine.Due mode sequence page total chain) (values : List UInt32) :
    { engine with window := engine.window.writeAll (4 * page) values }.Due mode sequence page total
      chain := by
  refine due.congr ?_ _
  intro word _ high
  exact Window.read_writeAll_of_outside (.inl high)

theorem runCipher_of_due (cipher : BlockCipher)
    (due : engine.Due mode sequence page total chain) {slot : UInt8} {key : Block} (held : engine.key? slot.toNat = some key) :
    runCipher cipher mode sequence.toByte slot engine =
      (.success, cipherRest cipher key mode page { engine with remaining := total, chain := chain }) := by
  rw [runCipher, held]
  cases due with
  | single alone asked => simp [Sequence.toByte, alone, asked]
  | chained linked asked =>
      have start : engine.window.page 1 = engine.page 1 := rfl
      simp [Sequence.toByte, linked, asked, start, Engine.page]
  | later waits => simp [Sequence.toByte, waits]

def marked (engine : Engine) (status : CommandStatus) : Engine :=
  { engine with
    window := engine.window.write 1
      ((engine.window.read 1 &&& 0xFFFF) ||| UInt32.ofNat (status.toNat * 0x10000)) }

theorem status_marked (engine : Engine) (status : CommandStatus) :
    ((engine.marked status).window.read 1).toNat / 0x10000 = status.toNat := by
  rw [marked, Window.read_write_self _ _ (by rw [windowWords]; omega)]
  exact status.upper_half _

def issued (engine : Engine) (header : UInt32) : Engine :=
  { engine with window := engine.window.write 0 header, commands := engine.commands + 1 }

theorem execute_commandHeader (cipher : BlockCipher) (command : CipherCommand) (sequence : Sequence)
    (slot : KeySlot) (engine : Engine) {status : CommandStatus} {after : Engine}
    (ran : runCommand cipher command.toByte sequence.toByte slot.toByte
      { engine with commands := engine.commands + 1 } = (status, after)) :
    execute cipher (commandHeader command sequence slot) engine = after.marked status := by
  have parts := bytes_commandHeader command sequence slot
  simp only [Word.bytes, List.cons.injEq, and_true] at parts
  obtain ⟨first, -, third, fourth⟩ := parts
  simp only [execute, Nat.shiftRight_zero, first, third, fourth, ran, marked]

theorem write_header (alive : engine.hung = false) (command : CipherCommand) (sequence : Sequence)
    (slot : KeySlot) {status : CommandStatus} {after : Engine}
    (ran : runCommand cipher command.toByte sequence.toByte slot.toByte
      (engine.issued (commandHeader command sequence slot)) = (status, after)) :
    engine.write cipher 0 (commandHeader command sequence slot) = after.marked status := by
  rw [Engine.write, if_pos ⟨rfl, by rw [alive]; exact Bool.false_ne_true⟩]
  exact execute_commandHeader cipher command sequence slot _ ran

structure Served (before after : Engine) (commands : Nat) : Prop where
  commands : after.commands = before.commands + commands
  keys : after.keys = before.keys
  hung : after.hung = before.hung

theorem Served.trans {first second third : Engine} {early late : Nat}
    (left : first.Served second early) (right : second.Served third late) :
    first.Served third (early + late) where
  commands := by rw [right.commands, left.commands, Nat.add_assoc]
  keys := right.keys.trans left.keys
  hung := right.hung.trans left.hung

theorem Served.key? {before after : Engine} {commands : Nat} (served : before.Served after commands)
    (slot : Nat) : after.key? slot = before.key? slot := by
  rw [Engine.key?, served.keys, Engine.key?]

structure Holds (slot : KeySlot) (key : Block) (engine : Engine) : Prop where
  alive : engine.hung = false
  held : engine.key? slot.toByte.toNat = some key

theorem Holds.served {slot : KeySlot} {key : Block} {engine after : Engine} {commands : Nat}
    (holds : engine.Holds slot key) (served : engine.Served after commands) : after.Holds slot key where
  alive := served.hung.trans holds.alive
  held := (served.key? _).trans holds.held

structure Ciphered (before after : Engine) (page : Nat) (result : List Block × Block)
    (left : Nat) : Prop where
  pages : after.window.pages page result.1.length = result.1
  chain : after.chain = result.2
  remaining : after.remaining = left
  served : before.Served after 1

theorem write_of_due (cipher : BlockCipher) (due : engine.Due mode sequence page total chain)
    (alive : engine.hung = false) {slot : KeySlot} {key : Block}
    (held : engine.key? slot.toByte.toNat = some key) {blocks : List Block}
    (loaded : engine.window.pages page blocks.length = blocks)
    (filled : min total (8 - page) = blocks.length) :
    ∃ after : Engine, engine.write cipher 0 (commandHeader mode.command sequence slot) =
        after.marked .success ∧
      engine.Ciphered (after.marked .success) page (cipherBlocks cipher key mode chain blocks)
        (total - blocks.length) := by
  have front := due.page_cases
  generalize issuing : engine.issued (commandHeader mode.command sequence slot) = issued
  have issuedDue : issued.Due mode sequence page total chain := by
    rw [← issuing]
    exact due.congr (fun word low _ => Window.read_write_of_ne _ _ (by omega)) _
  have issuedHeld : issued.key? slot.toByte.toNat = some key := by
    rw [← issuing]
    exact held
  have behind : issued.window.pages page blocks.length = blocks := by
    rw [← issuing]
    refine (Window.pages_congr ?_).trans loaded
    intro word low _
    exact Window.read_write_of_ne _ _ (by omega)
  have ran := runCipher_of_due cipher issuedDue issuedHeld
  rw [← runCommand_command, ← issuing] at ran
  refine ⟨_, write_header alive _ _ _ ran, ?_⟩
  rw [issuing]
  obtain ⟨window, made, pages, -⟩ := cipherPages_eq cipher key mode
    { issued with remaining := total, chain := chain } (show page + blocks.length ≤ 8 by omega)
  simp only [behind] at made pages
  simp only [cipherRest, filled, made]
  refine ⟨?_, rfl, rfl, ?_, ?_, ?_⟩
  · rw [length_cipherBlocks]
    refine (Window.pages_congr ?_).trans pages
    intro word low _
    exact Window.read_write_of_ne _ _ (by omega)
  · exact (congrArg Engine.commands issuing).symm
  · exact (congrArg Engine.keys issuing).symm
  · exact (congrArg Engine.hung issuing).symm

theorem write_of_keyEmpty (cipher : BlockCipher) (mode : CipherMode) (sequence : Sequence)
    (alive : engine.hung = false) {slot : KeySlot}
    (missing : engine.key? slot.toByte.toNat = none) :
    ∃ after : Engine, engine.write cipher 0 (commandHeader mode.command sequence slot) =
        after.marked .keyEmpty ∧ after.hung = false := by
  generalize issuing : engine.issued (commandHeader mode.command sequence slot) = issued
  have issuedMissing : issued.key? slot.toByte.toNat = none := by
    rw [← issuing]
    exact missing
  have ran : runCipher cipher mode sequence.toByte slot.toByte issued = (.keyEmpty, issued) := by
    rw [runCipher, issuedMissing]
  rw [← runCommand_command, ← issuing] at ran
  exact ⟨_, write_header alive _ _ _ ran, alive⟩

end Engine

end BufferedCan
