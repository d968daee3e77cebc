import BufferedCan.Proofs.Cipher.Operations
import BufferedCan.Proofs.Program.Obedience

/-! What software asks of the cipher engine, in any order and whether it succeeds or not. Every access lies
in the window, so no call ends in a fault, and a command changes the keys only if it loads one. An engine
that answers and has a key in a slot is therefore still one after any calls that do not load that slot. -/

namespace BufferedCan

inductive CipherRequest
  | seedRandom
  | random
  | loadPlainKey (key : Block)
  | operate (operation : CipherOperation) (slot : KeySlot) (input output : List UInt8)

structure CipherCall where
  limit : Nat
  request : CipherRequest

def CipherCall.program (call : CipherCall) : Program commandWindow Unit :=
  match call.request with
  | .seedRandom => do let _ ← CipherClient.seedRandom call.limit
  | .random => do let _ ← CipherClient.random call.limit
  | .loadPlainKey key => do let _ ← CipherClient.loadPlainKey call.limit key
  | .operate operation slot input output => do
    let _ ← operation.program call.limit slot input output

def CipherCall.Spares (slot : KeySlot) (call : CipherCall) : Prop :=
  ∀ key, call.request = .loadPlainKey key → slot ≠ .ramKey

def CipherCommand.Spares (slot : KeySlot) (command : CipherCommand) : Prop :=
  command = .loadPlainKey → slot ≠ .ramKey

/-- The access stays in the window, and a command that it starts leaves the key of the slot alone. -/
def WindowCall.Spares (slot : KeySlot) : WindowCall → Prop
  | .read word => word < windowWords
  | .write word value => word < windowWords ∧
    (word = 0 → ∃ command : CipherCommand, ∃ sequence owner,
      value = commandHeader command sequence owner ∧ command.Spares slot)
  | .isComplete => True

/-! The engine. -/

namespace Engine

variable {engine : Engine} {slot : KeySlot} {key : Block}

theorem key?_setKey_of_ne (engine : Engine) {place other : Nat} (value : Block)
    (apart : place ≠ other) : (engine.setKey place value).key? other = engine.key? other := by
  simp only [key?, setKey, Vector.getElem?_setIfInBounds_ne apart]

theorem Holds.setKey (holds : engine.Holds slot key) (other : Block) (apart : slot ≠ .ramKey) :
    (engine.setKey KeySlot.ramKey.toByte.toNat other).Holds slot key := by
  have places : KeySlot.ramKey.toByte.toNat ≠ slot.toByte.toNat := by
    intro same
    exact apart (KeySlot.toByte_injective (UInt8.toNat_inj.1 same)).symm
  exact ⟨holds.alive, (engine.key?_setKey_of_ne other places).trans holds.held⟩

theorem Holds.drawRandom (holds : engine.Holds slot key) : engine.drawRandom.Holds slot key := by
  have hung : engine.drawRandom.hung = engine.hung := by simp only [Engine.drawRandom, setPage]
  have keys : engine.drawRandom.keys = engine.keys := by simp only [Engine.drawRandom, setPage]
  refine ⟨hung.trans holds.alive, ?_⟩
  rw [key?, keys]
  exact holds.held

theorem Holds.cipherRest (cipher : BlockCipher) (other : Block) (mode : CipherMode) {first : Nat}
    (holds : engine.Holds slot key) (inside : first ≤ 8) :
    (cipherRest cipher other mode first engine).Holds slot key := by
  obtain ⟨window, made, -⟩ := cipherPages_eq cipher other mode engine
    (show first + min engine.remaining (8 - first) ≤ 8 by omega)
  rw [Engine.cipherRest, made]
  exact ⟨holds.alive, holds.held⟩

theorem Holds.runCipher (cipher : BlockCipher) (mode : CipherMode) (sequence owner : UInt8)
    (holds : engine.Holds slot key) :
    (runCipher cipher mode sequence owner engine).2.Holds slot key := by
  unfold Engine.runCipher
  split
  next => exact holds
  next other _ =>
    split
    next =>
      dsimp only
      split
      next => exact .cipherRest cipher other mode ⟨holds.alive, holds.held⟩ (by omega)
      next => exact .cipherRest cipher other mode ⟨holds.alive, holds.held⟩ (by omega)
    next =>
      split
      next => exact holds
      next => exact .cipherRest cipher other mode holds (by omega)

theorem Holds.runCommand (cipher : BlockCipher) {command : CipherCommand} (sequence owner : UInt8)
    (holds : engine.Holds slot key) (spares : command.Spares slot) :
    (runCommand cipher command.toByte sequence owner engine).2.Holds slot key := by
  simp only [Engine.runCommand, CipherCommand.ofByte?_toByte]
  cases command with
  | encryptEcb => exact .runCipher cipher _ sequence owner holds
  | encryptCbc => exact .runCipher cipher _ sequence owner holds
  | decryptEcb => exact .runCipher cipher _ sequence owner holds
  | decryptCbc => exact .runCipher cipher _ sequence owner holds
  | loadPlainKey => exact holds.setKey _ (spares rfl)
  | seedRandom => exact ⟨holds.alive, holds.held⟩
  | random =>
      dsimp only
      split
      next => exact holds.drawRandom
      next => exact holds

theorem Holds.write (cipher : BlockCipher) {word : Nat} {value : UInt32}
    (holds : engine.Holds slot key) (spares : (WindowCall.write word value).Spares slot) :
    (engine.write cipher word value).Holds slot key := by
  by_cases starts : word = 0
  · subst starts
    obtain ⟨command, sequence, owner, rfl, harmless⟩ := spares.2 rfl
    have issued : (engine.issued (commandHeader command sequence owner)).Holds slot key :=
      ⟨holds.alive, holds.held⟩
    have ran := issued.runCommand cipher sequence.toByte owner.toByte harmless
    rw [write_header holds.alive command sequence owner rfl]
    exact ⟨ran.alive, ran.held⟩
  · rw [CipherClient.write_of_pos engine value (by omega)]
    exact ⟨holds.alive, holds.held⟩

theorem Holds.runChecked (cipher : BlockCipher) {α : Type} {program : Program commandWindow α}
    (within : program.Within (WindowCall.Spares slot)) (holds : engine.Holds slot key) :
    ∃ value after, program.runChecked (behindWindow cipher) engine = (.ok value, after) ∧
      after.Holds slot key := by
  induction program generalizing engine with
  | done value => exact ⟨value, engine, rfl, holds⟩
  | ask call next ih =>
      obtain ⟨spares, onward⟩ := within
      cases call with
      | read word =>
          have inside : WindowCall.inside (.read word) = true := decide_eq_true spares
          simp only [Program.runChecked, behindWindow, Handler.within, inside, if_true]
          exact ih _ (onward _) holds
      | write word value =>
          have inside : WindowCall.inside (.write word value) = true := decide_eq_true spares.1
          simp only [Program.runChecked, behindWindow, Handler.within, inside, if_true]
          exact ih _ (onward _) (holds.write cipher spares)
      | isComplete =>
          have inside : WindowCall.inside .isComplete = true := rfl
          simp only [Program.runChecked, behindWindow, Handler.within, inside, if_true]
          exact ih _ (onward _) holds

end Engine

/-! The calls. -/

namespace CipherClient

variable {slot : KeySlot}

theorem readWindow_spares {word : Nat} (inside : word < windowWords) :
    (readWindow word).Within (WindowCall.Spares slot) :=
  ⟨inside, fun _ => trivial⟩

theorem writeWindow_spares {word : Nat} {value : UInt32}
    (spares : (WindowCall.write word value).Spares slot) :
    (writeWindow word value).Within (WindowCall.Spares slot) :=
  ⟨spares, fun _ => trivial⟩

theorem writeWords_spares {word : Nat} {values : List UInt32} (data : 0 < word)
    (fits : word + values.length ≤ windowWords) :
    (writeWords word values).Within (WindowCall.Spares slot) := by
  induction values generalizing word with
  | nil => trivial
  | cons value rest ih =>
      rw [List.length_cons] at fits
      refine Program.within_bind (writeWindow_spares ⟨by omega, ?_⟩) fun _ =>
        ih (by omega) (by omega)
      intro starts
      omega

theorem readWords_spares {word count : Nat} (fits : word + count ≤ windowWords) :
    (readWords word count).Within (WindowCall.Spares slot) := by
  induction count generalizing word with
  | zero => trivial
  | succ count ih =>
      refine Program.within_bind (readWindow_spares (by omega)) fun value => ?_
      exact Program.within_bind (ih (by omega)) fun _ => trivial

theorem awaitCompletion_spares (more : Nat) :
    (awaitCompletion more).Within (WindowCall.Spares slot) := by
  induction more with
  | zero => exact ⟨trivial, fun _ => trivial⟩
  | succ more ih =>
      refine ⟨trivial, fun complete => ?_⟩
      cases complete with
      | true => trivial
      | false => exact ih

theorem execute_spares (limit : Nat) {command : CipherCommand} (sequence : Sequence)
    (owner : KeySlot) (spares : command.Spares slot) :
    (execute limit command sequence owner).Within (WindowCall.Spares slot) := by
  have starts : (WindowCall.write 0 (commandHeader command sequence owner)).Spares slot :=
    ⟨by rw [windowWords]; omega, fun _ => ⟨command, sequence, owner, rfl, spares⟩⟩
  refine Program.within_bind (writeWindow_spares starts) fun _ => ?_
  refine Program.within_bind (awaitCompletion_spares _) fun complete => ?_
  cases complete with
  | false => trivial
  | true =>
      refine Program.within_bind (readWindow_spares (by rw [windowWords]; omega)) fun status => ?_
      split <;> trivial

/-- The first chunk fits behind the front page, and every other one behind page 1. -/
def Fits (page : Nat) : List (List UInt8) → Prop
  | [] => True
  | chunk :: more => 4 * page + chunk.length / 4 ≤ windowWords ∧
    ∀ later ∈ more, later.length ≤ maxPages * Block.size

theorem Fits.later {page : Nat} {chunk : List UInt8} {more : List (List UInt8)}
    (fits : Fits page (chunk :: more)) : Fits 1 more := by
  cases more with
  | nil => trivial
  | cons next rest =>
      have bound := fits.2 next List.mem_cons_self
      simp only [maxPages, Block.size] at bound
      refine ⟨?_, fun later member => fits.2 later (List.mem_cons_of_mem next member)⟩
      rw [windowWords]
      omega

theorem feed_spares (limit : Nat) {command : CipherCommand} (owner : KeySlot) (sequence : Sequence)
    {page : Nat} {chunks : List (List UInt8)} (finished rest : List UInt8)
    (spares : command.Spares slot) (front : 0 < page) (fits : Fits page chunks) :
    (feed limit command owner sequence page chunks finished rest).Within
      (WindowCall.Spares slot) := by
  induction chunks generalizing sequence page finished rest with
  | nil => trivial
  | cons chunk more ih =>
      have room := fits.1
      rw [feed, pageWord]
      refine Program.within_bind (writeWords_spares (by omega) ?_) fun _ => ?_
      · rw [Word.length_packAll]
        exact room
      refine Program.within_bind (execute_spares limit sequence owner spares) fun outcome => ?_
      cases outcome with
      | error error => trivial
      | ok done =>
          refine Program.within_bind (readWords_spares room) fun words => ?_
          exact ih _ _ _ Nat.one_pos fits.later

theorem length_of_mem_pieces {room fuel : Nat} {bytes chunk : List UInt8}
    (member : chunk ∈ pieces room fuel bytes) : chunk.length ≤ room := by
  induction fuel generalizing bytes with
  | zero => cases member
  | succ fuel ih =>
      cases bytes with
      | nil => cases member
      | cons byte bytes =>
          rcases List.mem_cons.1 member with rfl | later
          · exact List.length_take_le _ _
          · exact ih later

theorem fits_chunks (start : Option Block) (input : List UInt8) :
    Fits (frontPage start) (chunks start input) := by
  cases start with
  | some block =>
      refine ⟨?_, fun later member => length_of_mem_pieces member⟩
      have short : (input.take ((maxPages - 1) * Block.size)).length ≤ (maxPages - 1) * Block.size :=
        List.length_take_le _ _
      simp only [maxPages, Block.size, Nat.reduceSub, Nat.reduceMul] at short
      simp only [frontPage, Option.isSome_some, if_true, windowWords, maxPages, Block.size,
        Nat.reduceSub, Nat.reduceMul]
      omega
  | none =>
      cases cut : chunks none input with
      | nil => trivial
      | cons chunk more =>
          have short (piece : List UInt8) (member : piece ∈ chunk :: more) :
              piece.length ≤ maxPages * Block.size := by
            rw [← cut] at member
            exact length_of_mem_pieces member
          have first := short chunk List.mem_cons_self
          simp only [maxPages, Block.size] at first
          refine ⟨?_, fun later member => short later (List.mem_cons_of_mem chunk member)⟩
          simp only [frontPage, Option.isSome_none, Bool.false_eq_true, if_false, windowWords]
          omega

theorem process_spares (limit : Nat) {command : CipherCommand} (owner : KeySlot)
    (start : Option Block) (input output : List UInt8) (spares : command.Spares slot) :
    (process limit command owner start input output).Within (WindowCall.Spares slot) := by
  unfold process
  split
  next =>
    have three : 3 < windowWords := by rw [windowWords]; omega
    have fits := fits_chunks start input
    rw [setPageLength]
    refine Program.within_bind (Program.within_bind (readWindow_spares three) fun word =>
      writeWindow_spares ⟨three, ?_⟩) fun _ => ?_
    · intro starts
      omega
    cases start with
    | none => exact feed_spares limit owner .first [] output spares Nat.one_pos fits
    | some block =>
        refine Program.within_bind (writeWords_spares ?_ ?_) fun _ => ?_
        · rw [pageWord]
          omega
        · rw [pageWord, block.length_words, windowWords]
          omega
        · exact feed_spares limit owner .first [] output spares Nat.two_pos fits
  next => trivial

end CipherClient

theorem CipherCall.program_spares {slot : KeySlot} {call : CipherCall} (spares : call.Spares slot) :
    call.program.Within (WindowCall.Spares slot) := by
  obtain ⟨limit, request⟩ := call
  cases request with
  | seedRandom =>
      refine Program.within_bind (CipherClient.execute_spares limit .first .secretKey ?_)
        fun _ => trivial
      intro same
      cases same
  | random =>
      refine Program.within_bind (Program.within_bind
        (CipherClient.execute_spares limit .first .secretKey ?_) fun outcome => ?_)
        fun _ => trivial
      · intro same
        cases same
      cases outcome with
      | error error => trivial
      | ok done =>
          refine Program.within_bind (CipherClient.readWords_spares ?_) fun _ => trivial
          rw [CipherClient.pageWord, windowWords]
          omega
  | loadPlainKey key =>
      refine Program.within_bind (Program.within_bind (CipherClient.writeWords_spares ?_ ?_)
        fun _ => CipherClient.execute_spares limit .first .ramKey fun _ => spares key rfl)
        fun _ => trivial
      · rw [CipherClient.pageWord]
        omega
      · rw [CipherClient.pageWord, key.length_words, windowWords]
        omega
  | operate operation owner input output =>
      refine Program.within_bind ?_ fun _ => trivial
      rw [operation.program_eq]
      refine CipherClient.process_spares limit owner _ input output ?_
      intro same
      cases operation <;> cases same

theorem Engine.Holds.calls (cipher : BlockCipher) {engine : Engine} {slot : KeySlot} {key : Block}
    (holds : engine.Holds slot key) (calls : List CipherCall)
    (spares : ∀ call ∈ calls, call.Spares slot) :
    ∃ after, (Program.forEach calls CipherCall.program).runChecked (behindWindow cipher) engine =
        (.ok (), after) ∧ after.Holds slot key := by
  obtain ⟨value, after, ran, still⟩ := holds.runChecked cipher
    (Program.within_forEach fun call member => CipherCall.program_spares (spares call member))
  exact ⟨after, ran, still⟩

end BufferedCan
