import BufferedCan.Exchange.CommandLink
import BufferedCan.Proofs.Cipher.Chunks
import BufferedCan.Proofs.Controller.Reception
import BufferedCan.Proofs.Frame.Reading

/-! One end of a command link whose cipher engine works and has a key: the bytes that it sends for a
command, and what it makes of the bytes of a frame, with encryption on and off at either end. -/

namespace BufferedCan

open CommandLink

namespace CipherClient

variable {engine : Engine} {slot : KeySlot} {key : Block}

theorem yields_block (cipher : BlockCipher) (holds : engine.Holds slot key)
    (mode : Engine.CipherMode) (single : mode.chained = false) (limit : Nat) (block : Block) :
    Yields cipher engine (process limit mode.command slot none block.toList block.toList)
      (Engine.cipherBlock cipher key mode .zero block).1.toList 1 := by
  have joined : Block.join [block] = block.toList := List.append_nil _
  have one : [block].length < 0x10000 := Nat.lt_of_succ_le (by decide : 2 ≤ 0x10000)
  have fits : (Block.join [block]).length ≤ block.toList.length := Nat.le_of_eq (by rw [joined])
  obtain ⟨chain, yields⟩ := yields_process limit none single.symm holds.alive holds.held
    (List.cons_ne_nil block []) one fits
  rw [joined] at yields
  -- Without chaining it does not matter what earlier commands have left behind in the engine.
  have same : (Engine.cipherBlock cipher key mode chain block).1 =
      (Engine.cipherBlock cipher key mode .zero block).1 := by
    obtain ⟨encrypts, chained⟩ := mode
    cases single
    cases encrypts <;> rfl
  have output : produced [] block.toList
      (Engine.cipherBlocks cipher key mode ((none : Option Block).getD chain) [block]).1 =
        (Engine.cipherBlock cipher key mode .zero block).1.toList := by
    have rest : block.toList.drop 16 = [] := List.drop_of_length_le (by simp)
    change [] ++ (Block.join [(Engine.cipherBlock cipher key mode chain block).1] ++
      block.toList.drop 16) = _
    rw [rest, same]
    simp [Block.join]
  have count : commandCount none [block].length = 1 := by simp [commandCount, frontPage]
  rw [output, count] at yields
  exact yields

theorem yields_encryptBlock (cipher : BlockCipher) (holds : engine.Holds slot key) (limit : Nat)
    (block : Block) :
    Yields cipher engine (encryptBlock limit slot block) (cipher.encrypt key block).toList 1 :=
  yields_block cipher holds ⟨true, false⟩ rfl limit block

theorem yields_decryptBlock (cipher : BlockCipher) (holds : engine.Holds slot key) (limit : Nat)
    (block : Block) :
    Yields cipher engine (decryptBlock limit slot block) (cipher.decrypt key block).toList 1 :=
  yields_block cipher holds ⟨false, false⟩ rfl limit block

end CipherClient

namespace Link

def payload (cipher : BlockCipher) (key : Block) (encryption : Bool) (command : LedCommand) :
    List UInt8 :=
  if encryption then (cipher.encrypt key (plainBlock command)).toList else [command.toByte]

def ofByte (byte : UInt8) : Reception :=
  match LedCommand.ofByte? byte with
  | some command => .command command
  | none => .discarded (.unknownCommand byte)

def reported (cipher : BlockCipher) (key : Block) (encryption : Bool) (data : List UInt8) : Reception :=
  if encryption then
    if data.length = Block.size then ofByte ((cipher.decrypt key (.ofBytes data)).toList.headD 0)
    else .discarded (.unexpectedLength data.length)
  else
    match data with
    | [] => .discarded (.unexpectedLength 0)
    | byte :: _ => ofByte byte

variable {cipher : BlockCipher} {key : Block}

theorem length_payload (encryption : Bool) (command : LedCommand) :
    (payload cipher key encryption command).length = if encryption then 16 else 1 := by
  cases encryption
  · rfl
  · exact Vector.length_toList

/-! Bytes that were sent and received with one setting, and with different ones. -/

theorem reported_agreed (inverts : cipher.Inverts) (encryption : Bool) (command : LedCommand) :
    reported cipher key encryption (payload cipher key encryption command) = .command command := by
  cases encryption with
  | false =>
      change ofByte command.toByte = _
      rw [ofByte, LedCommand.ofByte?_toByte]
  | true =>
      have whole : (payload cipher key true command).length = Block.size := length_payload true command
      have first : (plainBlock command).toList.headD 0 = command.toByte := by
        cases command <;> rfl
      unfold reported
      rw [if_pos rfl, if_pos whole, payload, if_pos rfl, Block.ofBytes_toList, inverts, first, ofByte,
        LedCommand.ofByte?_toByte]

theorem reported_plain (command : LedCommand) :
    reported cipher key true (payload cipher key false command) =
      .discarded (.unexpectedLength 1) := rfl

theorem reported_valid (encryption : Bool) (data : List UInt8) :
    reported cipher key encryption data ≠ .discarded .unexpectedId ∧
      reported cipher key encryption data ≠ .discarded .decryptionFailed := by
  have byte (value : UInt8) : ofByte value ≠ .discarded .unexpectedId ∧
      ofByte value ≠ .discarded .decryptionFailed := by
    unfold ofByte
    split <;> simp
  unfold reported
  split
  · split
    · exact byte _
    · simp
  · split
    · simp
    · exact byte _

/-! The programs. -/

section
variable (cipher) {engine : Engine} {link : Link}

theorem run_wrap (holds : engine.Holds link.key key) (command : LedCommand) :
    ∃ after : Engine, (link.wrap command).runChecked (Engine.behindWindow cipher) engine =
        (.ok (.ok (payload cipher key link.encryption command)), after) ∧
      after.Holds link.key key := by
  cases on : link.encryption with
  | false => exact ⟨engine, by rw [wrap, on]; rfl, holds⟩
  | true =>
      obtain ⟨after, ran, served⟩ := CipherClient.yields_encryptBlock cipher holds
        link.pollLimit (plainBlock command)
      refine ⟨after, ?_, holds.served served⟩
      rw [wrap, on, if_pos rfl, Program.runChecked_bind_ok ran]
      rfl

theorem run_send {σ : Type} (handler : Handler registers σ) (state : σ)
    (holds : engine.Holds link.key key) (command : LedCommand) :
    let sent := (link.running.transmitPayload (.standard link.role.transmitId)
      (payload cipher key link.encryption command)).run handler state
    ∃ after : Engine,
      (link.send command).runChecked (handler.checked.both (Engine.behindWindow cipher))
          (state, engine) = (.ok (sent.1.mapError (Refusal.map .transmit)), sent.2, after) ∧
        after.Holds link.key key := by
  obtain ⟨after, wrapped, kept⟩ := run_wrap cipher holds command
  refine ⟨after, ?_, kept⟩
  rw [send, Program.runChecked_bind, Program.runChecked_onRight, wrapped]
  dsimp only
  rw [Program.runChecked_bind, Program.runChecked_onLeft]
  rfl

theorem run_unwrap (holds : engine.Holds link.key key) (data : List UInt8) :
    ∃ (after : Engine) (opened : Except Discard UInt8),
      (link.unwrap data).runChecked (Engine.behindWindow cipher) engine = (.ok opened, after) ∧
      after.Holds link.key key ∧
      reported cipher key link.encryption data =
        match opened with
        | .error reason => .discarded reason
        | .ok byte => ofByte byte := by
  cases on : link.encryption with
  | false =>
      cases data with
      | nil => exact ⟨engine, .error (.unexpectedLength 0), by rw [unwrap, on]; rfl, holds, rfl⟩
      | cons byte rest => exact ⟨engine, .ok byte, by rw [unwrap, on]; rfl, holds, rfl⟩
  | true =>
      by_cases whole : data.length = Block.size
      · obtain ⟨after, ran, served⟩ := CipherClient.yields_decryptBlock cipher holds
          link.pollLimit (.ofBytes data)
        refine ⟨after, .ok ((cipher.decrypt key (.ofBytes data)).toList.headD 0), ?_,
          holds.served served, ?_⟩
        · unfold unwrap
          rw [on, if_pos rfl, if_pos whole, Program.runChecked_bind_ok ran]
          rfl
        · unfold reported
          rw [if_pos rfl, if_pos whole]
      · refine ⟨engine, .error (.unexpectedLength data.length), ?_, holds, ?_⟩
        · unfold unwrap
          rw [on, if_pos rfl, if_neg whole]
          rfl
        · unfold reported
          rw [if_pos rfl, if_neg whole]

theorem run_decode (holds : engine.Holds link.key key) {message : Message}
    (addressed : message.id = .standard link.role.receiveId) :
    ∃ after : Engine, (link.decode message).runChecked (Engine.behindWindow cipher) engine =
        (.ok (reported cipher key link.encryption message.data), after) ∧
      after.Holds link.key key := by
  obtain ⟨after, opened, unwrapped, kept, reports⟩ := run_unwrap cipher holds message.data
  refine ⟨after, ?_, kept⟩
  rw [decode, if_pos addressed, Program.runChecked_bind_ok unwrapped, reports]
  cases opened with
  | error reason => rfl
  | ok byte =>
      dsimp only [ofByte]
      cases LedCommand.ofByte? byte <;> rfl

theorem run_receive {σ : Type} (handler : Handler registers σ) (state : σ)
    (holds : engine.Holds link.key key)
    (addressed : ∀ message, (link.running.receive.run handler state).1 = some message →
      message.id = .standard link.role.receiveId) :
    let taken := link.running.receive.run handler state
    ∃ after : Engine,
      link.receive.runChecked (handler.checked.both (Engine.behindWindow cipher)) (state, engine) =
          (.ok (taken.1.map fun message => reported cipher key link.encryption message.data),
            taken.2, after) ∧
        after.Holds link.key key := by
  rw [receive, Program.runChecked_bind, Program.runChecked_onLeft]
  dsimp only
  cases ran : link.running.receive.run handler state with
  | mk taken changed =>
      rw [ran] at addressed
      cases taken with
      | none => exact ⟨engine, rfl, holds⟩
      | some message =>
          obtain ⟨after, decoded, kept⟩ := run_decode cipher holds (addressed message rfl)
          refine ⟨after, ?_, kept⟩
          dsimp only
          rw [Program.runChecked_bind, Program.runChecked_onRight, decoded]
          rfl

end

end Link

end BufferedCan
