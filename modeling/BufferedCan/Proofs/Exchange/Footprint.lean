import BufferedCan.Exchange.CommandLink
import BufferedCan.Proofs.Controller.Faults
import BufferedCan.Proofs.Controller.Waiting
import BufferedCan.Proofs.Network.Member

/-! What sending asks of a controller that may show anything. A message is checked first, and then
there is one look at the transmit buffer. Only if that is free does anything change: its flag, and the
words of the buffer, with the word that hands it over at the very end. -/

namespace BufferedCan

theorem Frozen.sound_of_start {frozen : Frozen} {running : Running} {trace : List (Event registers)}
    (ran : frozen.start.Runs trace (.ok (.ok running))) : running.Sound := by
  rcases planned : frozen.settings.plan frozen.clock with fault | error | plan
  · simp only [start, planned] at ran
    cases (Program.runs_done_iff.1 ran).2
  · simp only [start, planned] at ran
    cases (Program.runs_done_iff.1 ran).2
  · obtain ⟨outcome, same, applied⟩ := runs_start planned ran
    obtain rfl := Except.ok.inj same
    rw [plan.apply_eq] at applied
    rcases Attempt.runs_bind_iff.1 applied with
      ⟨first, second, _, rfl, passed, rest⟩ | ⟨_, ended, -⟩
    · obtain ⟨missing, passage, succeeded⟩ := ModeChange.runs_perform_iff.1 passed
      obtain rfl : none = missing := ModeChange.verdict_inj () succeeded
      obtain ⟨-, same⟩ := Program.runs_done_iff.1 rest
      obtain rfl := Except.ok.inj same
      exact ⟨(Settings.planned_of_ok planned).buffers, passage.patient⟩
    · cases ended

/-! The frame. -/

def Settings.demands (settings : Settings) (content : Content) (length : Nat) :
    List (Requirement TransmitError) :=
  [⟨content.isRemote = false, .ok .remoteFrame⟩,
    ⟨content.isFd = true → settings.mode.isFd = true, .ok .fdNotEnabled⟩,
    ⟨settings.mode.isFd = true → content.switchesRate = true →
      settings.mode.allowsSwitching = true, .ok .switchingNotEnabled⟩,
    ⟨length ≤ settings.mode.dataSize.bytes, .ok .tooMuchData⟩]

theorem Settings.refusal?_cases (settings : Settings) (content : Content) (length : Nat) :
    settings.refusal? content length = none ∧
        (∀ demand ∈ settings.demands content length, demand.met) ∨
      ∃ error, settings.refusal? content length = some error ∧
        Blames (settings.demands content length) (.ok error) := by
  unfold refusal?
  by_cases remote : content.isRemote = true
  · rw [if_pos remote]
    exact .inr ⟨_, rfl, .first (by simp [remote])⟩
  rw [if_neg remote]
  have plain : content.isRemote = false := Bool.not_eq_true _ ▸ remote
  by_cases foreign : (!settings.mode.isFd && content.isFd) = true
  · rw [if_pos foreign]
    refine .inr ⟨_, rfl, .later plain (.first ?_)⟩
    simpa [and_comm] using foreign
  rw [if_neg foreign]
  have native : content.isFd = true → settings.mode.isFd = true := by grind
  by_cases fast :
      (settings.mode.isFd && !settings.mode.allowsSwitching && content.switchesRate) = true
  · rw [if_pos fast]
    refine .inr ⟨_, rfl, .later plain (.later native (.first ?_))⟩
    simpa [and_right_comm, and_assoc] using fast
  rw [if_neg fast]
  have paced : settings.mode.isFd = true → content.switchesRate = true →
      settings.mode.allowsSwitching = true := by
    grind
  by_cases long : settings.mode.dataSize.bytes < length
  · rw [if_pos long]
    exact .inr ⟨_, rfl, .later plain (.later native (.later paced (.first (Nat.not_le.2 long))))⟩
  · rw [if_neg long]
    refine .inl ⟨rfl, ?_⟩
    simp only [demands, List.forall_mem_cons]
    exact ⟨plain, native, paced, Nat.not_lt.1 long, nofun⟩

namespace Draft

def words (draft : Draft) (length : Nat) : List UInt32 :=
  let room := 4 * ((length + 3) / 4)
  Word.packAll (draft.content.bytes ++ List.replicate (room - draft.content.bytes.length) 0)

theorem words_message {draft : Draft} {message : Message} (encoded : draft.encode? = some message) :
    message.words = draft.words message.length := by
  rw [encode?_eq] at encoded
  obtain ⟨lengthCode, coded, rfl⟩ := Option.map_eq_some_iff.1 encoded
  have small := Length.code?_lt coded
  have short := Length.ofCode_le draft.content.isFd lengthCode
  have fits : draft.content.bytes.length ≤ Length.ofCode draft.content.isFd lengthCode :=
    Nat.le_trans (Length.bytes_le_length _) (Length.le_ofCode coded)
  rw [← length_message small] at short fits
  have count : (draft.message lengthCode).wordCount = ((draft.message lengthCode).length + 3) / 4 :=
    rfl
  rw [← Word.packAll_unpackAll (draft.message lengthCode).words, words]
  apply congrArg
  apply List.ext_getElem
  · rw [Word.length_unpackAll, Message.words, List.length_map, List.length_range,
      List.length_append, List.length_replicate]
    omega
  · intro index bound _
    have carried : index < 4 * (draft.message lengthCode).wordCount := by
      rwa [Word.length_unpackAll, Message.words, List.length_map, List.length_range] at bound
    have few : (draft.message lengthCode).wordCount ≤ 16 := by omega
    have place : (Word.unpackAll (draft.message lengthCode).words).getD index 0 =
        draft.content.bytes.getD index 0 :=
      (Payload.getD_unpackAll_words _ few).trans (if_pos carried)
    rw [List.getD_eq_getElem?_getD, List.getElem?_eq_getElem bound, Option.getD_some] at place
    rw [place]
    rw [List.getElem_append]
    split
    next given => simp [given]
    next beyond => simp [Nat.not_lt.1 beyond]

end Draft

theorem Settings.length_le_of_met {settings : Settings} {content : Content} {length : Nat}
    (met : ∀ demand ∈ settings.demands content length, demand.met) :
    length ≤ settings.mode.dataSize.bytes := by
  simp only [demands, List.forall_mem_cons] at met
  exact met.2.2.2.1

/-! The exchange. -/

namespace Buffer

def contents (buffer : Buffer) (draft : Draft) (message : Message) : List (Nat × UInt32) :=
  (draft.words message.length).mapIdx (fun number word => (buffer.payloadWord number, word)) ++
    [(buffer.identWord, draft.id.toWord),
      (buffer.controlWord, MbCs.code.set BufferCode.txData.toBits message.control)]

def look (buffer : Buffer) (control : UInt32) : Event registers :=
  ⟨.read (ramOffset buffer.controlWord), control⟩

end Buffer

namespace Running

def handover (running : Running) (draft : Draft) (message : Message) : List (Event registers) :=
  ⟨.write Register.iflag1.offset (flagWord running.transmitBuffer.index), ()⟩ ::
    (running.transmitBuffer.contents draft message).map fun place =>
      ⟨.write (ramOffset place.1) place.2, ()⟩

/-- A message is refused without an access, or the buffer is found taken, or the message is handed
over. -/
inductive Transmission (running : Running) (draft : Draft) (message : Message) :
    List (Event registers) → Except (Refusal TransmitError) Unit → Prop
  | refused {error : TransmitError}
      (blames : Blames (running.settings.demands draft.content message.length) (.ok error)) :
      Transmission running draft message [] (.error (.failed error))
  | taken {control : UInt32}
      (met : ∀ demand ∈ running.settings.demands draft.content message.length, demand.met)
      (busy : (BufferCode.ofBits (MbCs.code.get control)).isInactive = false) :
      Transmission running draft message [running.transmitBuffer.look control] (.error .wouldBlock)
  | queued {control : UInt32}
      (met : ∀ demand ∈ running.settings.demands draft.content message.length, demand.met)
      (free : (BufferCode.ofBits (MbCs.code.get control)).isInactive = true) :
      Transmission running draft message
        (running.transmitBuffer.look control :: running.handover draft message) (.ok ())

variable {running : Running} {draft : Draft} {message : Message} {trace : List (Event registers)}

theorem mapIdx_map_range {α β : Type} (count : Nat) (content : Nat → α) (place : Nat → α → β) :
    ((List.range count).map content).mapIdx place =
      (List.range count).map fun number => place number (content number) := by
  apply List.ext_getElem
  · rw [List.length_mapIdx, List.length_map, List.length_map]
  · intro number bound _
    rw [List.getElem_mapIdx, List.getElem_map, List.getElem_map, List.getElem_range]

theorem runs_enqueue (encoded : draft.encode? = some message)
    (fits : message.length ≤ running.transmitBuffer.size.bytes)
    (ran : (running.enqueue message).Runs trace ()) : trace = running.handover draft message := by
  have whole : message.wordCount ≤ running.transmitBuffer.size.payloadWords := by
    have four := running.transmitBuffer.size.four_mul_payloadWords
    rw [Message.wordCount]
    omega
  have ident : message.ident = draft.id.toWord := by
    rw [Draft.encode?_eq] at encoded
    obtain ⟨lengthCode, -, rfl⟩ := Option.map_eq_some_iff.1 encoded
    rfl
  obtain ⟨flags, rest, _, rfl, cleared, storing⟩ := Program.runs_bind_iff.1 ran
  obtain ⟨payload, header, _, rfl, filled, headed⟩ := Program.runs_bind_iff.1 storing
  obtain ⟨first, last, _, rfl, named, handed⟩ := Program.runs_bind_iff.1 headed
  rw [Nat.min_eq_left whole] at filled
  rw [runs_writeWord_iff.1 cleared, runs_forEach_writeWord filled, runs_writeWord_iff.1 named,
    runs_writeWord_iff.1 handed, handover, Buffer.contents, ← Draft.words_message encoded, ident,
    Message.words, mapIdx_map_range, List.map_append, List.map_map]
  rfl

theorem runs_transmit (sound : running.Sound) {outcome : Except (Refusal TransmitError) Unit}
    (encoded : draft.encode? = some message) (ran : (running.transmit message).Runs trace outcome) :
    running.Transmission draft message trace outcome := by
  have objection : running.objection? message =
      running.settings.refusal? draft.content message.length := by
    rw [Draft.encode?_eq] at encoded
    obtain ⟨lengthCode, coded, rfl⟩ := Option.map_eq_some_iff.1 encoded
    have small := Length.code?_lt coded
    rw [running.objection?_eq sound draft small, Draft.length_message small]
  rcases running.settings.refusal?_cases draft.content message.length with
    ⟨none, met⟩ | ⟨error, refused, blames⟩
  · rw [transmit, objection, none] at ran
    obtain ⟨look, rest, code, rfl, read, onward⟩ := Program.runs_bind_iff.1 ran
    obtain ⟨shown, nothing, control, rfl, word, decoded⟩ := Program.runs_bind_iff.1 read
    obtain ⟨rfl, rfl⟩ := Program.runs_done_iff.1 decoded
    rw [runs_readWord_iff.1 word, List.append_nil]
    split at onward
    next free =>
      obtain ⟨queue, last, _, rfl, queued, ended⟩ := Program.runs_bind_iff.1 onward
      obtain ⟨rfl, rfl⟩ := Program.runs_done_iff.1 ended
      have fits : message.length ≤ running.transmitBuffer.size.bytes := by
        rw [sound.buffers.transmitSize]
        exact Settings.length_le_of_met met
      rw [List.append_nil, runs_enqueue encoded fits queued]
      exact .queued met free
    next busy =>
      obtain ⟨rfl, rfl⟩ := Program.runs_done_iff.1 onward
      exact .taken met (Bool.not_eq_true _ ▸ busy)
  · rw [transmit, objection, refused] at ran
    obtain ⟨rfl, rfl⟩ := Program.runs_done_iff.1 ran
    exact .refused blames

/-! What is left alone. -/

end Running

theorem ramOffset_ne_timer (word : Nat) : ramOffset word ≠ Register.timer.offset := by
  rw [ramOffset, Register.offset]
  omega

theorem Wire.keeps_read {offset : Nat} (untimed : offset ≠ Register.timer.offset) (node : Nat)
    (wire : Wire) : (wire.read node offset).2 = wire := by
  cases present : wire.stations[node]? with
  | none => rw [Wire.read, present]
  | some station =>
      rw [Wire.read_eq present, Station.read, if_neg untimed]
      exact Wire.replace_self present

namespace Running

variable {running : Running} {draft : Draft} {message : Message} {trace : List (Event registers)}

/-- The access leaves the receive buffer, its flag and all other registers alone. -/
structure Spares (running : Running) (access : Access) : Prop where
  buffer : ∀ word, running.receiveBuffer.controlWord ≤ word →
    word < running.receiveBuffer.controlWord + running.receiveBuffer.size.bufferWords →
      access.offset ≠ ramOffset word
  register : ∀ register : Register, access.offset = register.offset → register = .iflag1
  mask : ∀ index, access.offset ≠ rxMaskOffset index
  flag : ∀ value, access = .write Register.iflag1.offset value →
    flagSet running.receiveBuffer.index value = false

def Idle (running : Running) : Access → Prop
  | .read offset => offset = ramOffset running.transmitBuffer.controlWord
  | .write _ _ => False

theorem Sound.spares_word (sound : running.Sound) {access : Access} {word : Nat}
    (place : access.offset = ramOffset word) (lower : running.transmitBuffer.controlWord ≤ word)
    (upper : word < running.transmitBuffer.controlWord + running.transmitBuffer.size.bufferWords) :
    running.Spares access := by
  have room := running.transmitBuffer.controlWord_add_bufferWords_le
  rw [ramWords] at room
  have bound : word < 736 := by omega
  constructor
  · intro other first last same
    have size := sound.buffers.transmitSize.trans sound.buffers.receiveSize.symm
    rw [place, ramOffset, ramOffset] at same
    rcases Buffer.apart size sound.buffers.apart lower upper with before | behind
    · omega
    · omega
  · intro register same
    have distinct := Memory.offset_ne_ramOffset register bound
    rw [← place, same] at distinct
    exact absurd rfl distinct
  · intro index same
    rw [place, ramOffset, rxMaskOffset] at same
    omega
  · rintro value rfl
    have distinct := Memory.offset_ne_ramOffset .iflag1 bound
    rw [← place] at distinct
    exact absurd rfl distinct

theorem Sound.spares_flag (sound : running.Sound) :
    running.Spares (.write Register.iflag1.offset (flagWord running.transmitBuffer.index)) := by
  constructor
  · intro word _ last same
    have room := running.receiveBuffer.controlWord_add_bufferWords_le
    rw [ramWords] at room
    have distinct := Memory.offset_ne_ramOffset .iflag1 (show word < 736 by omega)
    rw [← same] at distinct
    exact absurd rfl distinct
  · intro register same
    exact (@Register.offset_injective .iflag1 register same).symm
  · intro index same
    simp only [Access.offset, Register.offset, rxMaskOffset] at same
    omega
  · rintro value ⟨⟩
    have few := running.transmitBuffer.size.bufferCount_le
    have bound := running.transmitBuffer.index_lt
    rw [flagSet, testBit_flagWord _ (by omega)]
    exact decide_eq_false sound.buffers.apart

theorem Sound.store_spares (sound : running.Sound) (message : Message) (code : BufferCode) :
    (running.transmitBuffer.store message code).Within running.Spares := by
  have words := running.transmitBuffer.size.bufferWords_eq
  refine Program.within_bind (Program.within_forEach fun number member => ?_) fun _ => ?_
  · have few := List.mem_range.1 member
    refine ⟨sound.spares_word rfl ?_ ?_, fun _ => trivial⟩
    · rw [Buffer.payloadWord]
      omega
    · rw [Buffer.payloadWord]
      omega
  · refine Program.within_bind ⟨sound.spares_word rfl ?_ ?_, fun _ => trivial⟩ fun _ => ?_
    · rw [Buffer.identWord]
      omega
    · rw [Buffer.identWord]
      omega
    · exact ⟨sound.spares_word rfl (Nat.le_refl _) (by omega), fun _ => trivial⟩

theorem Sound.transmit_spares (sound : running.Sound) (message : Message) :
    (running.transmit message).Within running.Spares := by
  have words := running.transmitBuffer.size.bufferWords_eq
  have look : running.transmitBuffer.readCode.Within running.Spares :=
    ⟨sound.spares_word rfl (Nat.le_refl _) (by omega), fun _ => trivial⟩
  rw [transmit]
  split
  next => trivial
  next =>
    refine Program.within_bind look fun code => ?_
    split
    next =>
      refine Program.within_bind ?_ fun _ => trivial
      exact Program.within_bind ⟨sound.spares_flag, fun _ => trivial⟩ fun _ =>
        sound.store_spares message .txData
    next => trivial

theorem Sound.transmitPayload_spares (sound : running.Sound) (id : Identifier)
    (payload : List UInt8) : (running.transmitPayload id payload).Within running.Spares := by
  rw [transmitPayload, transmitDraft]
  split
  next => trivial
  next message _ => exact sound.transmit_spares message

theorem Transmission.idle {refusal : Refusal TransmitError}
    (transmission : running.Transmission draft message trace (.error refusal)) :
    ∀ event ∈ trace, running.Idle event.call := by
  cases transmission with
  | refused blames => nofun
  | taken met busy => exact List.forall_mem_singleton.2 rfl

theorem transmitPayload_idle (sound : running.Sound) {id : Identifier} {payload : List UInt8}
    {refusal : Refusal TransmitError}
    (ran : (running.transmitPayload id payload).Runs trace (.error refusal)) :
    ∀ event ∈ trace, running.Idle event.call := by
  rw [transmitPayload, transmitDraft] at ran
  split at ran
  next =>
    obtain ⟨rfl, -⟩ := Program.runs_done_iff.1 ran
    nofun
  next message encoded => exact (runs_transmit sound encoded ran).idle

theorem Idle.keeps_wire {access : Access} (idle : running.Idle access) (node : Nat) (wire : Wire) :
    (Wire.access node access wire).2 = wire := by
  cases access with
  | write offset value => exact idle.elim
  | read offset =>
      obtain rfl : offset = ramOffset running.transmitBuffer.controlWord := idle
      exact Wire.keeps_read (ramOffset_ne_timer _) node wire

/-- Whatever is replied, the program spares what is not its own, and if it fails it has changed
nothing. -/
structure Careful {ε α : Type} (running : Running) (program : Program registers (Except ε α)) :
    Prop where
  spares : ∀ trace outcome, program.Runs trace outcome →
    ∀ event ∈ trace, running.Spares event.call
  idle : ∀ trace error, program.Runs trace (.error error) → ∀ event ∈ trace, running.Idle event.call
  wire : ∀ (node : Nat) (wire : Wire) (error : ε),
    (program.run (Wire.access node) wire).1 = .error error →
      (program.run (Wire.access node) wire).2 = wire

theorem careful_of_idle {ε α : Type} {program : Program registers (Except ε α)}
    (spares : program.Within running.Spares)
    (idle : ∀ trace error, program.Runs trace (.error error) →
      ∀ event ∈ trace, running.Idle event.call) : running.Careful program where
  spares _ _ ran := spares.runs ran
  idle := idle
  wire node wire error failed := by
    have ran := program.runs_trace (Wire.access node) wire
    rw [failed] at ran
    apply Program.run_keeps id
    intro event member before
    exact (idle _ _ ran event member).keeps_wire node before

end Running

namespace Link

variable {link : Link} {command : LedCommand} {trace : List (Event devices)}

def Spares (link : Link) : devices.Call → Prop
  | .inl access => link.running.Spares access
  | .inr _ => True

def Idle (link : Link) : devices.Call → Prop
  | .inl access => link.running.Idle access
  | .inr _ => True

structure Careful {ε α : Type} (link : Link) (program : Program devices (Except ε α)) : Prop where
  spares : ∀ trace outcome, program.Runs trace outcome → ∀ event ∈ trace, link.Spares event.call
  idle : ∀ trace error, program.Runs trace (.error error) → ∀ event ∈ trace, link.Idle event.call
  wire : ∀ {σ : Type} (security : Handler commandWindow σ) (node : Nat) (state : Wire × σ)
    (error : ε), (program.run ((Wire.access node).both security) state).1 = .error error →
      (program.run ((Wire.access node).both security) state).2.1 = state.1

theorem runs_send {outcome : Except (Refusal LinkError) Unit}
    (ran : (link.send command).Runs trace outcome) :
    ∃ told : List (Event registers),
      (∀ event ∈ trace, (∃ own ∈ told, event = own.onLeft) ∨ ∃ request, event.call = .inr request) ∧
      (told = [] ∨ ∃ payload result,
        (link.running.transmitPayload (.standard link.role.transmitId) payload).Runs told result ∧
        outcome = result.mapError (Refusal.map .transmit)) := by
  obtain ⟨first, rest, wrapped, rfl, wrapping, onward⟩ := Program.runs_bind_iff.1 ran
  obtain ⟨asked, rfl, -⟩ := Program.runs_onRight wrapping
  -- Each access goes to the engine or belongs to the transmission.
  have apart (told : List (Event registers)) :
      ∀ event ∈ asked.map Event.onRight ++ told.map Event.onLeft,
        (∃ own ∈ told, event = own.onLeft) ∨ ∃ request, event.call = .inr request := by
    intro event member
    rcases List.mem_append.1 member with security | controller
    · obtain ⟨own, -, rfl⟩ := List.mem_map.1 security
      exact .inr ⟨own.call, rfl⟩
    · obtain ⟨own, among, rfl⟩ := List.mem_map.1 controller
      exact .inl ⟨own, among, rfl⟩
  cases wrapped with
  | error error =>
      obtain ⟨rfl, -⟩ := Program.runs_done_iff.1 onward
      exact ⟨[], apart [], .inl rfl⟩
  | ok payload =>
      obtain ⟨sent, last, result, rfl, sending, ended⟩ := Program.runs_bind_iff.1 onward
      obtain ⟨told, rfl, transmitted⟩ := Program.runs_onLeft sending
      obtain ⟨rfl, rfl⟩ := Program.runs_done_iff.1 ended
      rw [List.append_nil]
      exact ⟨told, apart told, .inr ⟨payload, result, transmitted, rfl⟩⟩

theorem send_spares (sound : link.running.Sound) {outcome : Except (Refusal LinkError) Unit}
    (ran : (link.send command).Runs trace outcome) :
    ∀ event ∈ trace, link.Spares event.call := by
  obtain ⟨told, apart, transmitted⟩ := runs_send ran
  intro event member
  rcases apart event member with ⟨own, among, rfl⟩ | ⟨request, security⟩
  · rcases transmitted with rfl | ⟨payload, result, transmitted, -⟩
    · cases among
    · exact (sound.transmitPayload_spares _ payload).runs transmitted own among
  · rw [security]
    trivial

theorem send_idle (sound : link.running.Sound) {refusal : Refusal LinkError}
    (ran : (link.send command).Runs trace (.error refusal)) :
    ∀ event ∈ trace, link.Idle event.call := by
  obtain ⟨told, apart, transmitted⟩ := runs_send ran
  intro event member
  rcases apart event member with ⟨own, among, rfl⟩ | ⟨request, security⟩
  · rcases transmitted with rfl | ⟨payload, result, transmitted, failed⟩
    · cases among
    · cases result with
      | ok _ => cases failed
      | error error => exact Running.transmitPayload_idle sound transmitted own among
  · rw [security]
    trivial

theorem send_careful (sound : link.running.Sound) (command : LedCommand) :
    link.Careful (link.send command) where
  spares _ _ ran := send_spares sound ran
  idle _ _ ran := send_idle sound ran
  wire security node state error failed := by
    have ran := (link.send command).runs_trace ((Wire.access node).both security) state
    rw [failed] at ran
    apply Program.run_keeps Prod.fst
    rintro ⟨call, reply⟩ member before
    cases call with
    | inl access => exact (send_idle sound ran _ member).keeps_wire node before.1
    | inr request => rfl

end Link

/-- Whatever a controller was set up on and whatever it shows: messages are checked, looked at and
handed over in this order and no other, and a call that fails changes nothing. -/
theorem transmissions_careful {frozen : Frozen} {running : Running} {setup : List (Event registers)}
    (made : frozen.start.Runs setup (.ok (.ok running))) :
    (∀ draft message, draft.encode? = some message →
      (∀ trace outcome, (running.transmit message).Runs trace outcome →
        running.Transmission draft message trace outcome) ∧
      running.Careful (running.transmit message)) ∧
    (∀ id payload, running.Careful (running.transmitPayload id payload)) ∧
    ∀ link : Link, link.running = running → ∀ command, link.Careful (link.send command) := by
  have sound := Frozen.sound_of_start made
  refine ⟨?_, ?_, ?_⟩
  · intro draft message encoded
    constructor
    · intro trace outcome ran
      exact Running.runs_transmit sound encoded ran
    · apply Running.careful_of_idle (sound.transmit_spares message)
      intro trace error ran
      exact (Running.runs_transmit sound encoded ran).idle
  · intro id payload
    apply Running.careful_of_idle (sound.transmitPayload_spares id payload)
    intro trace error ran
    exact Running.transmitPayload_idle sound ran
  · rintro link rfl command
    exact Link.send_careful sound command

namespace Blank

def device : Handler registers Unit
  | .read _, _ => (0, ())
  | .write _ _, _ => ((), ())

def frozen : Frozen where
  clock := .oscillator
  settings := .ofBitRate 500000

def draft : Draft := ⟨.standard 0x123, .data [1, 2, 3, 4, 5]⟩

def link (running : Running) : Link where
  running := running
  role := .master
  key := .ramKey
  pollLimit := 1

theorem transmissions_careful_queued : ∃ running message,
    frozen.start.Runs (frozen.start.trace device ()) (.ok (.ok running)) ∧
    draft.encode? = some message ∧
    running.Transmission draft message ((running.transmit message).trace device ()) (.ok ()) ∧
    (link running).Careful ((link running).send .led0Change) := by
  have made := Program.runs_trace device frozen.start ()
  refine ⟨_, _, made, rfl, ?_, ?_⟩
  · apply ((transmissions_careful made).1 draft _ rfl).1
    exact Program.runs_trace device _ ()
  · exact (transmissions_careful made).2.2 _ rfl .led0Change

end Blank

end BufferedCan
