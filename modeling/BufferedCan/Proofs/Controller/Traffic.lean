import BufferedCan.Controller.Status
import BufferedCan.Controller.Traffic
import BufferedCan.Proofs.Controller.Access
import BufferedCan.Proofs.Hardware.Storage

/-! What sending and receiving do to a controller. Storing a message asks for one transfer, with the
write of the control word, provided that the controller divides its buffer memory as the buffer does. -/

namespace BufferedCan

namespace Station

def outgoing (station : Station) (node buffer : Nat) : Transfer where
  sender := node
  buffer := buffer
  control := station.control buffer
  ident := station.ident buffer
  words := station.payloadWords buffer

def message (station : Station) (buffer : Buffer) : Message :=
  let header : Message :=
    { control := station.memory.ram buffer.controlWord
      ident := station.memory.ram buffer.identWord
      payload := .ofBytes []
      capacity := buffer.size.bytes }
  { header with
    payload := .ofWords <| (List.range (min header.wordCount buffer.size.payloadWords)).map
      fun number => station.memory.ram (buffer.payloadWord number) }

theorem payload_message (station : Station) (buffer : Buffer) :
    (station.message buffer).payload =
      .ofWords ((List.range (min (station.message buffer).wordCount
        buffer.size.payloadWords)).map fun number =>
          station.memory.ram (buffer.payloadWord number)) := by
  simp only [message, Message.wordCount, Message.length, Message.isFd, Message.lengthCode]

theorem message_eq (station : Station) (buffer : Buffer) :
    station.message buffer = buffer.held station.memory.ram := by
  simp only [message, Message.wordCount, Message.length_eq_ofControl]
  rfl

def codeOf (station : Station) (buffer : Buffer) : BufferCode :=
  .ofBits (MbCs.code.get (station.memory.ram buffer.controlWord))

end Station

namespace Buffer

structure Stored (buffer : Buffer) (message : Message) (code : BufferCode)
    (before after : Station) : Prop where
  stalled : after.stalled = before.stalled
  get : ∀ register, after.memory.get register = before.memory.get register
  control : after.memory.ram buffer.controlWord = MbCs.code.set code.toBits message.control
  ident : after.memory.ram buffer.identWord = message.ident
  payload : ∀ number < min message.wordCount buffer.size.payloadWords,
    after.memory.ram (buffer.payloadWord number) = message.word number
  outside : ∀ word < 736, word < buffer.controlWord ∨
    buffer.controlWord + buffer.size.bufferWords ≤ word →
      after.memory.ram word = before.memory.ram word

variable (buffer : Buffer)

theorem Stored.keepsSetup {buffer : Buffer} {message : Message} {code : BufferCode}
    {before after : Station} (stored : buffer.Stored message code before after) :
    before.KeepsSetup after :=
  ⟨stored.stalled, fun register _ _ => stored.get register⟩

theorem controlWord_lt : buffer.controlWord < ramWords := by
  have room := buffer.controlWord_add_bufferWords_le
  have words := buffer.size.bufferWords_cases
  omega

theorem identWord_lt : buffer.identWord < ramWords := by
  have room := buffer.controlWord_add_bufferWords_le
  have words := buffer.size.bufferWords_cases
  simp only [identWord]
  omega

theorem controlWord_mod : buffer.controlWord % buffer.size.bufferWords = 0 := by
  rw [controlWord, Nat.mul_mod_left]

theorem controlWord_div : buffer.controlWord / buffer.size.bufferWords = buffer.index := by
  have words := buffer.size.bufferWords_cases
  rw [controlWord, Nat.mul_div_left _ (by omega)]

theorem identWord_mod : buffer.identWord % buffer.size.bufferWords = 1 := by
  have words := buffer.size.bufferWords_cases
  rw [identWord, controlWord, Nat.mul_comm, Nat.mul_add_mod]
  exact Nat.mod_eq_of_lt (by omega)

theorem payloadWord_mod {number : Nat} (within : number < buffer.size.payloadWords) :
    buffer.payloadWord number % buffer.size.bufferWords = 2 + number := by
  rw [payloadWord, controlWord, Nat.mul_comm, Nat.add_assoc, Nat.mul_add_mod]
  exact Nat.mod_eq_of_lt (by rw [DataSize.bufferWords_eq]; omega)

end Buffer

section
variable (node : Nat) (station : Station) (waiting : List Transfer)

theorem run_forEach_payload (buffer : Buffer) (message : Message)
    (agreed : station.layout = buffer.size) (numbers : List Nat)
    (within : ∀ number ∈ numbers, number < buffer.size.payloadWords) :
    ∃ memory : Memory,
      (Program.forEach numbers fun number =>
        writeRam (buffer.payloadWord number) (message.word number)).run (Station.device node)
        (station, waiting) = ((), { station with memory := memory }, waiting) ∧
      (∀ register, memory.get register = station.memory.get register) ∧
      (∀ number ∈ numbers, memory.ram (buffer.payloadWord number) = message.word number) ∧
      ∀ word, (∀ number ∈ numbers, word ≠ buffer.payloadWord number) →
        memory.ram word = station.memory.ram word := by
  induction numbers generalizing station with
  | nil => exact ⟨station.memory, rfl, fun _ => rfl, by simp, fun _ _ => rfl⟩
  | cons first rest ih =>
      have place := within first (by simp)
      have bound := buffer.payloadWord_lt place
      have small : buffer.payloadWord first < 736 := by
        simp only [ramWords] at bound
        omega
      have kept := station.keepsSetup_setRam (message.word first) small
      obtain ⟨memory, ran, get, payload, outside⟩ := ih
        (station.setRam (buffer.payloadWord first) (message.word first))
        (kept.layout.trans agreed) fun number member => within number (by simp [member])
      have written (word : Nat) :
          (station.setRam (buffer.payloadWord first) (message.word first)).memory.ram word =
            if buffer.payloadWord first = word then message.word first
            else station.memory.ram word :=
        Memory.ram_writeRam _ _ _ (by omega)
      refine ⟨memory, ?_, ?_, ?_, ?_⟩
      · have inner : buffer.payloadWord first %
            (station.setRam (buffer.payloadWord first) (message.word first)).layout.bufferWords ≠
              0 := by
          rw [kept.layout, agreed, buffer.payloadWord_mod place]
          omega
        rw [Program.forEach, Program.run_bind, run_writeRam node station waiting _ bound,
          Station.request?_of_place _ _ inner, Option.toList_none, List.append_nil]
        exact ran
      · intro register
        rw [get register]
        exact Memory.get_writeRam _ register _ small
      · intro number member
        by_cases later : number ∈ rest
        · exact payload number later
        · have own : number = first := by simpa [later] using member
          subst own
          rw [outside _ fun other otherMember same => later (by
            have : other = number := by simp only [Buffer.payloadWord] at same; omega
            rwa [← this]), written, if_pos rfl]
      · intro word apart
        rw [outside word fun number member => apart number (by simp [member]), written,
          if_neg (apart first (by simp)).symm]

theorem request?_of_txData {station : Station} {buffer : Buffer} (agreed : station.layout = buffer.size)
    (code : MbCs.code.get (station.memory.ram buffer.controlWord) = BufferCode.txData.toBits) :
    station.request? node buffer.controlWord = some (station.outgoing node buffer.index) := by
  have place : station.control buffer.index = station.memory.ram buffer.controlWord := by
    rw [Station.control_eq, agreed]
    rfl
  simp only [Station.request?, agreed, buffer.controlWord_mod, buffer.controlWord_div,
    buffer.index_lt, place, code]
  rw [if_pos ⟨trivial, trivial, by decide⟩]
  simp only [Station.outgoing, place]

/-- Handing a message over asks for exactly one transfer: what the buffer now holds. -/
theorem run_store (buffer : Buffer) (message : Message) (agreed : station.layout = buffer.size) :
    ∃ after, buffer.Stored message .txData station after ∧
      (buffer.store message .txData).run (Station.device node) (station, waiting) =
        ((), after, waiting ++ [after.outgoing node buffer.index]) := by
  have identBound := buffer.identWord_lt
  have controlBound := buffer.controlWord_lt
  simp only [ramWords] at identBound controlBound
  have next : buffer.identWord = buffer.controlWord + 1 := rfl
  obtain ⟨memory, filling, get, payload, outside⟩ := run_forEach_payload node station waiting buffer
    message agreed (List.range (min message.wordCount buffer.size.payloadWords))
    fun number member => by
      have := List.mem_range.mp member
      omega
  let filled : Station := { station with memory := memory }
  let named := filled.setRam buffer.identWord message.ident
  let after := named.setRam buffer.controlWord
    (MbCs.code.set BufferCode.txData.toBits message.control)
  have filledKept : station.KeepsSetup filled := ⟨rfl, fun register _ _ => get register⟩
  have namedKept : station.KeepsSetup named :=
    filledKept.trans (filled.keepsSetup_setRam _ (by omega))
  have afterKept : station.KeepsSetup after :=
    namedKept.trans (named.keepsSetup_setRam _ (by omega))
  have ram (word : Nat) : after.memory.ram word =
      if buffer.controlWord = word then MbCs.code.set BufferCode.txData.toBits message.control
      else if buffer.identWord = word then message.ident else memory.ram word := by
    simp only [after, named, filled, Station.setRam]
    rw [Memory.ram_writeRam _ _ _ (by omega), Memory.ram_writeRam _ _ _ (by omega)]
  have control : after.memory.ram buffer.controlWord =
      MbCs.code.set BufferCode.txData.toBits message.control := by rw [ram, if_pos rfl]
  have quiet : named.request? node buffer.identWord = none := by
    apply Station.request?_of_place
    rw [namedKept.layout, agreed, buffer.identWord_mod]
    decide
  have asked : after.request? node buffer.controlWord =
      some (after.outgoing node buffer.index) := by
    refine request?_of_txData node (afterKept.layout.trans agreed) ?_
    rw [control, Field.get_set]
    decide
  refine ⟨after, ⟨afterKept.stalled, ?_, control, ?_, ?_, ?_⟩, ?_⟩
  · intro register
    rw [← get register]
    simp only [after, named, filled, Station.setRam]
    rw [Memory.get_writeRam _ _ _ (by omega), Memory.get_writeRam _ _ _ (by omega)]
  · rw [ram, if_neg (by omega), if_pos rfl]
  · intro number within
    rw [ram, if_neg (by simp only [Buffer.payloadWord]; omega),
      if_neg (by simp only [next, Buffer.payloadWord]; omega)]
    exact payload number (List.mem_range.mpr within)
  · intro word bound apart
    have words := buffer.size.bufferWords_eq
    rw [ram, if_neg (by omega), if_neg (by omega)]
    apply outside
    intro number member
    have := List.mem_range.mp member
    simp only [Buffer.payloadWord]
    omega
  · rw [Buffer.store, Program.run_bind, filling, Program.run_bind]
    dsimp only
    rw [run_writeRam node filled waiting message.ident buffer.identWord_lt]
    dsimp only
    rw [quiet, Option.toList_none, List.append_nil,
      run_writeRam node named waiting _ buffer.controlWord_lt, asked]
    rfl

theorem run_readCode (buffer : Buffer) :
    buffer.readCode.run (Station.device node) (station, waiting) =
      (station.codeOf buffer, station, waiting) :=
  buffer.run_readCode fun _ => run_readRam node station waiting

theorem run_fetch (buffer : Buffer) (limit : Nat) :
    (buffer.fetch limit).run (Station.device node) (station, waiting) =
      (if 0 < limit ∧ (station.codeOf buffer).isBusy = false then some (station.message buffer)
        else none, station, waiting) := by
  rw [station.message_eq]
  exact buffer.run_fetch (fun _ => run_readRam node station waiting) limit

end

namespace Running

variable (running : Running) (node : Nat) (station : Station) (waiting : List Transfer)

theorem run_transmit_of_objection {running : Running} {message : Message} {error : TransmitError}
    (objected : running.objection? message = some error) :
    (running.transmit message).run (Station.device node) (station, waiting) =
      (.error (.failed error), station, waiting) := by
  rw [transmit, objected]
  rfl

theorem run_transmit_of_busy {running : Running} {message : Message} {station : Station}
    (plain : running.objection? message = none)
    (busy : (station.codeOf running.transmitBuffer).isInactive = false) :
    (running.transmit message).run (Station.device node) (station, waiting) =
      (.error .wouldBlock, station, waiting) := by
  rw [transmit, plain]
  simp only
  rw [Program.run_bind, run_readCode]
  simp [busy]

theorem run_transmit_of_free {running : Running} {message : Message} {station : Station}
    (agreed : station.layout = running.transmitBuffer.size)
    (plain : running.objection? message = none)
    (free : (station.codeOf running.transmitBuffer).isInactive = true) :
    ∃ after, running.transmitBuffer.Stored message .txData
        (station.setRegister .iflag1
          (station.memory.get .iflag1 &&& ~~~flagWord running.transmitBuffer.index)) after ∧
      (running.transmit message).run (Station.device node) (station, waiting) =
        (.ok (), after, waiting ++ [after.outgoing node running.transmitBuffer.index]) := by
  have same : (station.setRegister .iflag1
      (station.memory.get .iflag1 &&& ~~~flagWord running.transmitBuffer.index)).layout =
      running.transmitBuffer.size := by
    rw [← agreed]
    simp [Station.layout, Station.get_setRegister]
  obtain ⟨after, stored, storing⟩ := run_store node _ waiting running.transmitBuffer message same
  refine ⟨after, stored, ?_⟩
  rw [transmit, plain]
  simp only
  rw [Program.run_bind, run_readCode]
  simp only [free, if_true]
  rw [Program.run_bind, enqueue, Program.run_bind, run_writeFlags]
  simp only
  rw [storing]
  rfl

theorem run_receive :
    running.receive.run (Station.device node) (station, waiting) =
      if flagSet running.receiveBuffer.index (station.memory.get .iflag1) = true ∧
          0 < running.settings.pollLimit ∧
          (station.codeOf running.receiveBuffer).isBusy = false then
        (some (station.message running.receiveBuffer),
          { station with timerReads := station.timerReads + 1 }.setRegister .iflag1
            (station.memory.get .iflag1 &&& ~~~flagWord running.receiveBuffer.index), waiting)
      else (none, station, waiting) := by
  rw [receive, Program.run_bind, run_read node station waiting (by decide)]
  by_cases raised : flagSet running.receiveBuffer.index (station.memory.get .iflag1) = true
  · simp only [raised, if_true, true_and]
    rw [Program.run_bind, run_fetch]
    by_cases ready : 0 < running.settings.pollLimit ∧
        (station.codeOf running.receiveBuffer).isBusy = false
    · simp only [if_pos ready]
      rw [Program.run_bind, run_readTimer, Program.run_bind, run_writeFlags]
      rfl
    · simp only [if_neg ready]
      rfl
  · simp only [raised]
    rfl

theorem run_protocolStatus :
    Running.protocolStatus.run (Station.device node) (station, waiting) =
      (.protocolStatus (station.memory.get .esr1), station, waiting) := by
  rw [Running.protocolStatus, Program.run_bind, run_read _ _ _ (by decide)]
  rfl

theorem run_errorCounters :
    Running.errorCounters.run (Station.device node) (station, waiting) =
      (.errorCounters (station.memory.get .ecr), station, waiting) := by
  rw [Running.errorCounters, Program.run_bind, run_read _ _ _ (by decide)]
  rfl

theorem run_timeStamp :
    Running.timeStamp.run (Station.device node) (station, waiting) =
      (Timer.timer.get (station.memory.get .timer),
        { station with timerReads := station.timerReads + 1 }, waiting) := by
  rw [Running.timeStamp, Program.run_bind, run_readTimer]
  rfl

end Running

end BufferedCan
