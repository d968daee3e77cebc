import BufferedCan.Proofs.Controller.Service
import BufferedCan.Proofs.Controller.Traffic
import BufferedCan.Proofs.Frame.Reading
import BufferedCan.Proofs.Hardware.Delivery

/-! How a controller in service takes part in a delivery. Each step of it touches one buffer: storing
touches the receive buffer and completing touches the transmit buffer. -/

namespace BufferedCan

namespace Station

structure Touches (buffer : Nat) (before after : Station) : Prop where
  setup : before.KeepsSetup after
  outside : ∀ word < 736, word < buffer * before.layout.bufferWords ∨
    buffer * before.layout.bufferWords + before.layout.bufferWords ≤ word →
      after.memory.ram word = before.memory.ram word

theorem Touches.trans {buffer : Nat} {first second third : Station}
    (left : first.Touches buffer second) (right : second.Touches buffer third) :
    first.Touches buffer third where
  setup := left.setup.trans right.setup
  outside word bound apart := by
    rw [right.outside word bound (by rw [left.setup.layout]; exact apart),
      left.outside word bound apart]

section
variable {buffer other : Nat} {before after : Station} (touched : before.Touches buffer after)
  (apart : other ≠ buffer) (bound : other < before.layout.bufferCount)
include touched apart bound

theorem Touches.ram {place : Nat} (inside : place < before.layout.bufferWords) :
    after.memory.ram (other * before.layout.bufferWords + place) =
      before.memory.ram (other * before.layout.bufferWords + place) := by
  have room := before.layout.place_le bound
  simp only [ramWords] at room
  exact touched.outside _ (by omega) (before.layout.apart_of_ne apart inside)

theorem Touches.control : after.control other = before.control other := by
  have inside : 0 < before.layout.bufferWords := by rw [DataSize.bufferWords_eq]; omega
  rw [control_eq, touched.setup.layout]
  exact touched.ram apart bound inside

theorem Touches.code : after.code other = before.code other := by
  rw [Station.code, touched.control apart bound, Station.code]

theorem Touches.ident : after.ident other = before.ident other := by
  have inside : 1 < before.layout.bufferWords := by rw [DataSize.bufferWords_eq]; omega
  rw [ident_eq, touched.setup.layout]
  exact touched.ram apart bound inside

theorem Touches.payloadWord {number : Nat} (within : number < before.layout.payloadWords) :
    after.payloadWord other number = before.payloadWord other number := by
  have inside : 2 + number < before.layout.bufferWords := by
    rw [DataSize.bufferWords_eq]
    omega
  rw [Station.payloadWord, Station.payloadWord, touched.setup.layout, Nat.add_assoc]
  exact touched.ram apart bound inside

theorem Touches.outgoing (node : Nat) : after.outgoing node other = before.outgoing node other := by
  have words : after.payloadWords other = before.payloadWords other := by
    rw [payloadWords_eq, payloadWords_eq, touched.setup.layout]
    apply List.map_congr_left
    intro number member
    exact touched.payloadWord apart bound (List.mem_range.mp member)
  rw [Station.outgoing, touched.control apart bound, touched.ident apart bound, words,
    Station.outgoing]

end

theorem touches_tick (station : Station) (buffer : Nat) : station.Touches buffer station.tick.2 :=
  ⟨station.keepsSetup_tick, fun _ bound _ => station.ram_tick bound⟩

theorem touches_fill (station : Station) (transfer : Transfer) {buffer : Nat}
    (bound : buffer < station.layout.bufferCount) :
    station.Touches buffer (station.fill transfer buffer) :=
  ⟨station.keepsSetup_fill transfer bound,
    fun _ wordBound outside => station.ram_fill_of_outside transfer wordBound outside⟩

theorem touches_complete (station : Station) {buffer : Nat} (bound : buffer < 32) :
    station.Touches buffer (station.complete buffer) := by
  refine ⟨station.keepsSetup_complete bound, fun word wordBound outside => ?_⟩
  have words := station.layout.bufferWords_cases
  rw [station.ram_complete bound wordBound, if_neg (by omega)]

theorem touches_stored {buffer : Buffer} {message : Message} {code : BufferCode}
    {before after : Station} (stored : buffer.Stored message code before after)
    (agreed : before.layout = buffer.size) : before.Touches buffer.index after := by
  refine ⟨stored.keepsSetup, fun word bound outside => stored.outside word bound ?_⟩
  rw [agreed] at outside
  exact outside

theorem touches_setFlags (station : Station) (flags : UInt32) (buffer : Nat) :
    station.Touches buffer (station.setRegister .iflag1 flags) := by
  refine ⟨⟨rfl, fun register notFlags _ => ?_⟩, fun word bound _ => ?_⟩
  · rw [get_setRegister, if_neg notFlags.symm]
  · exact station.ram_setRegister .iflag1 flags bound

theorem touches_timerReads (station : Station) (timerReads buffer : Nat) :
    station.Touches buffer { station with timerReads := timerReads } :=
  ⟨⟨rfl, fun _ _ _ => rfl⟩, fun _ _ _ => rfl⟩

theorem touches_read (station : Station) (flags : UInt32) (buffer : Nat) :
    station.Touches buffer
      ({ station with timerReads := station.timerReads + 1 }.setRegister .iflag1 flags) := by
  have cleared := station.touches_setFlags flags buffer
  exact ⟨⟨cleared.setup.stalled, cleared.setup.get⟩, cleared.outside⟩

end Station

structure Transfer.Carries (transfer : Transfer) (draft : Draft) (dlc : Nat) : Prop where
  coded : Length.code? draft.content.isFd draft.content.length = some dlc
  plain : draft.content.isRemote = false
  shown : draft.Shown dlc transfer.control
  ident : transfer.ident = draft.id.toWord
  words : ∀ number, 4 * number < Length.ofCode draft.content.isFd dlc →
    transfer.words.getD number 0 = (Payload.ofBytes draft.content.bytes).word number

namespace Station

structure Listens (running : Running) (station : Station) : Prop where
  receives : (station.code running.receiveBuffer.index).receives = true
  standard : MbCs.ide.isSet (station.control running.receiveBuffer.index) = false
  ident : station.ident running.receiveBuffer.index =
    (Identifier.standard running.settings.buffers.receiveId).toWord
  alone : ∀ other < station.layout.bufferCount, other ≠ running.receiveBuffer.index →
    (station.code other).receives = false

structure Holds (running : Running) (draft : Draft) (dlc : Nat) (overrun : Bool) (time : Nat)
    (station : Station) : Prop where
  coded : Length.code? draft.content.isFd draft.content.length = some dlc
  plain : draft.content.isRemote = false
  shown : draft.Shown dlc (station.control running.receiveBuffer.index)
  ident : station.ident running.receiveBuffer.index = draft.id.toWord
  code : station.code running.receiveBuffer.index = if overrun then .rxOverrun else .rxFull
  timestamp : MbCs.timestamp.get (station.control running.receiveBuffer.index) = time
  words : ∀ number < station.layout.payloadWords,
    4 * number < Length.ofCode draft.content.isFd dlc →
      station.payloadWord running.receiveBuffer.index number =
        (Payload.ofBytes draft.content.bytes).word number

section
variable {running : Running} {station after : Station} {transfer : Transfer} {draft : Draft}
  {dlc : Nat}

theorem Listens.of_touches {buffer : Nat} (listens : station.Listens running)
    (touched : station.Touches buffer after) (apart : running.receiveBuffer.index ≠ buffer)
    (bound : running.receiveBuffer.index < station.layout.bufferCount)
    (quiet : (after.code buffer).receives = false) : after.Listens running where
  receives := by rw [touched.code apart bound, listens.receives]
  standard := by rw [touched.control apart bound, listens.standard]
  ident := by rw [touched.ident apart bound, listens.ident]
  alone other otherBound notOwn := by
    by_cases same : other = buffer
    · rw [same, quiet]
    · rw [touched.setup.layout] at otherBound
      rw [touched.code same otherBound]
      exact listens.alone other otherBound notOwn

theorem Holds.of_touches {buffer : Nat} {overrun : Bool} {time : Nat}
    (holds : station.Holds running draft dlc overrun time)
    (touched : station.Touches buffer after) (apart : running.receiveBuffer.index ≠ buffer)
    (bound : running.receiveBuffer.index < station.layout.bufferCount) :
    after.Holds running draft dlc overrun time where
  coded := holds.coded
  plain := holds.plain
  shown := by rw [touched.control apart bound]; exact holds.shown
  ident := by rw [touched.ident apart bound, holds.ident]
  code := by rw [touched.code apart bound, holds.code]
  timestamp := by rw [touched.control apart bound, holds.timestamp]
  words number within announced := by
    rw [touched.setup.layout] at within
    rw [touched.payloadWord apart bound within, holds.words number within announced]

theorem passes_iff (serves : station.Serves running.settings) (listens : station.Listens running)
    (carries : transfer.Carries draft dlc) :
    station.passes transfer running.receiveBuffer.index = true ↔
      draft.id = .standard running.settings.buffers.receiveId := by
  have mask : (0x1FFFFFFF : UInt32) &&& 0x1FFFFFFF = 0x1FFFFFFF := by decide
  simp only [passes, listens.standard, carries.shown.ide, listens.ident, carries.ident, serves.mask,
    mask, Bool.and_eq_true, beq_iff_eq]
  constructor
  · rintro ⟨format, matched⟩
    have same : (Identifier.standard running.settings.buffers.receiveId).isExtended =
        draft.id.isExtended := format
    exact ((Identifier.matches_iff same).mp matched).symm
  · intro same
    rw [same]
    exact ⟨rfl, (Identifier.matches_iff rfl).mpr rfl⟩

theorem target?_of_listens (sound : running.Sound) (serves : station.Serves running.settings)
    (listens : station.Listens running) (carries : transfer.Carries draft dlc) :
    station.target? transfer =
      if draft.id = .standard running.settings.buffers.receiveId then
        some running.receiveBuffer.index
      else none := by
  have bound : running.receiveBuffer.index < station.activeBuffers := by
    rw [serves.active, ← sound.buffers.receiveSize]
    exact running.receiveBuffer.index_lt
  rw [target?_of_only transfer bound fun other otherBound => listens.alone other (by
      rw [serves.active, ← serves.layout] at otherBound
      exact otherBound), listens.receives, Bool.true_and]
  simp only [passes_iff serves listens carries]

theorem follows_eq (serves : station.Serves running.settings)
    (carries : transfer.Carries draft dlc) :
    station.follows transfer = (!draft.content.isFd || running.settings.mode.isFd) := by
  rw [follows, serves.running, carries.shown.edl, serves.fd, Bool.true_and]

theorem receive_lt (sound : running.Sound) (serves : station.Serves running.settings) :
    running.receiveBuffer.index < station.layout.bufferCount := by
  rw [serves.layout, ← sound.buffers.receiveSize]
  exact running.receiveBuffer.index_lt

theorem transmit_lt (sound : running.Sound) (serves : station.Serves running.settings) :
    running.transmitBuffer.index < station.layout.bufferCount := by
  rw [serves.layout, ← sound.buffers.transmitSize]
  exact running.transmitBuffer.index_lt

theorem ofBits_code_stamp (station : Station) (buffer : Nat) (control : UInt32) :
    .ofBits (MbCs.code.get (station.stamp (station.fillCode buffer) control)) =
      station.fillCode buffer := by
  rw [stamp, Field.get_set_of_disjoint (by decide), Field.get_set]
  unfold fillCode
  split <;> rfl

theorem hear_eq (sound : running.Sound) (serves : station.Serves running.settings)
    (listens : station.Listens running) (carries : transfer.Carries draft dlc) :
    (station.hear transfer).2 =
      if !draft.content.isFd || running.settings.mode.isFd then
        if draft.id = .standard running.settings.buffers.receiveId then
          (station.fill transfer running.receiveBuffer.index).tick.2
        else station.tick.2
      else station := by
  rw [hear, follows_eq serves carries]
  split
  · rw [target?_of_listens sound serves listens carries]
    by_cases addressed : draft.id = .standard running.settings.buffers.receiveId
    · simp only [if_pos addressed]
    · simp only [if_neg addressed]
  · rfl

section
variable (sound : running.Sound) (serves : station.Serves running.settings)
  (carries : transfer.Carries draft dlc)
include sound serves

theorem touches_stored_frame (transfer : Transfer) :
    station.Touches running.receiveBuffer.index
      (station.fill transfer running.receiveBuffer.index).tick.2 :=
  (station.touches_fill transfer (receive_lt sound serves)).trans (touches_tick _ _)

theorem control_stored_frame (transfer : Transfer) :
    (station.fill transfer running.receiveBuffer.index).tick.2.control
        running.receiveBuffer.index =
      station.stamp (station.fillCode running.receiveBuffer.index) transfer.control := by
  have bound := receive_lt sound serves
  have room := station.layout.place_le bound
  have kept := station.keepsSetup_fill transfer bound
  have words := station.layout.bufferWords_cases
  simp only [ramWords] at room
  rw [control_eq, (keepsSetup_tick _).layout, kept.layout, ram_tick _ (by omega),
    ← station.control_fill transfer bound, control_eq, kept.layout]

theorem ident_stored_frame (transfer : Transfer) :
    (station.fill transfer running.receiveBuffer.index).tick.2.ident
        running.receiveBuffer.index = transfer.ident := by
  have bound := receive_lt sound serves
  have room := station.layout.place_le bound
  have kept := station.keepsSetup_fill transfer bound
  have words := station.layout.bufferWords_cases
  simp only [ramWords] at room
  rw [ident_eq, (keepsSetup_tick _).layout, kept.layout, ram_tick _ (by omega),
    ← station.ident_fill transfer bound, ident_eq, kept.layout]

theorem payloadWord_stored_frame (transfer : Transfer) {number : Nat}
    (within : number < station.layout.payloadWords) :
    (station.fill transfer running.receiveBuffer.index).tick.2.payloadWord
        running.receiveBuffer.index number = transfer.words.getD number 0 := by
  have bound := receive_lt sound serves
  have room := station.layout.place_le bound
  have kept := station.keepsSetup_fill transfer bound
  have words := station.layout.bufferWords_eq
  simp only [ramWords] at room
  rw [payloadWord, (keepsSetup_tick _).layout, kept.layout, ram_tick _ (by omega),
    ← station.payloadWord_fill transfer bound within, payloadWord, kept.layout]

theorem flag_stored_frame (transfer : Transfer) :
    flagSet running.receiveBuffer.index
      ((station.fill transfer running.receiveBuffer.index).tick.2.memory.get .iflag1) = true := by
  have small : running.receiveBuffer.index < 32 :=
    Nat.lt_of_lt_of_le running.receiveBuffer.index_lt running.receiveBuffer.size.bufferCount_le
  rw [get_tick _ (by decide), station.iflag1_fill transfer (receive_lt sound serves),
    flagSet_raise _ _ small]
  simp

include carries

theorem listens_stored_frame (listens : station.Listens running)
    (addressed : draft.id = .standard running.settings.buffers.receiveId) :
    (station.fill transfer running.receiveBuffer.index).tick.2.Listens running := by
  have touched := touches_stored_frame sound serves transfer
  have control := control_stored_frame sound serves transfer
  refine ⟨?_, ?_, ?_, ?_⟩
  · rw [code, control, ofBits_code_stamp]
    unfold fillCode
    split <;> rfl
  · rw [control, stamp, Field.isSet_set_of_disjoint (by decide),
      Field.isSet_set_of_disjoint (by decide), carries.shown.ide, addressed]
    rfl
  · rw [ident_stored_frame sound serves, carries.ident, addressed]
  · intro other otherBound apart
    rw [touched.setup.layout] at otherBound
    rw [touched.code apart otherBound]
    exact listens.alone other otherBound apart

theorem holds_stored_frame (small : station.time < 65536) :
    (station.fill transfer running.receiveBuffer.index).tick.2.Holds running draft dlc
      (flagSet running.receiveBuffer.index (station.memory.get .iflag1)) station.time := by
  have touched := touches_stored_frame sound serves transfer
  have control := control_stored_frame sound serves transfer
  refine ⟨carries.coded, carries.plain, ?_, ?_, ?_, ?_, ?_⟩
  · rw [control]
    exact (carries.shown.set_code _).set_timestamp _
  · rw [ident_stored_frame sound serves, carries.ident]
  · rw [code, control, ofBits_code_stamp]
    rfl
  · rw [control, stamp, Field.get_set_of_lt (Field.get_lt _ _)]
    exact Nat.mod_eq_of_lt small
  · intro number within announced
    rw [touched.setup.layout] at within
    rw [payloadWord_stored_frame sound serves transfer within, carries.words number announced]

end

end

section
variable {running : Running} {station after : Station}

/-! Software and hardware mean the same words by a buffer. -/

theorem codeOf_eq {buffer : Buffer} (agreed : station.layout = buffer.size) :
    station.codeOf buffer = station.code buffer.index := by
  rw [code, control_eq, agreed]
  rfl

theorem reading_of_holds {draft : Draft} {dlc time : Nat} {overrun : Bool} (sound : running.Sound)
    (serves : station.Serves running.settings)
    (holds : station.Holds running draft dlc overrun time) :
    (station.message running.receiveBuffer).reading =
      draft.reading dlc running.settings.mode.dataSize.bytes overrun time := by
  have agreed : station.layout = running.receiveBuffer.size := by
    rw [serves.layout, sound.buffers.receiveSize]
  have control : station.memory.ram running.receiveBuffer.controlWord =
      station.control running.receiveBuffer.index := by
    rw [control_eq, agreed]
    rfl
  have ident : station.memory.ram running.receiveBuffer.identWord =
      station.ident running.receiveBuffer.index := by
    rw [ident_eq, agreed]
    rfl
  have words (number : Nat) : station.memory.ram (running.receiveBuffer.payloadWord number) =
      station.payloadWord running.receiveBuffer.index number := by
    rw [payloadWord, agreed]
    rfl
  have length : (station.message running.receiveBuffer).length =
      Length.ofCode draft.content.isFd dlc := by
    simp only [Message.length, Message.isFd, Message.lengthCode, message, control,
      holds.shown.edl, holds.shown.dlc]
  have shown : draft.Shown dlc (station.message running.receiveBuffer).control := by
    simp only [message, control]
    exact holds.shown
  have time : (station.message running.receiveBuffer).timestamp = time := by
    simp only [Message.timestamp, message, control, holds.timestamp]
  have payload : (station.message running.receiveBuffer).payload = .ofWords
      ((List.range (min (station.message running.receiveBuffer).wordCount
        running.receiveBuffer.size.payloadWords)).map
          (Payload.ofBytes draft.content.bytes).word) := by
    rw [payload_message]
    refine congrArg Payload.ofWords (List.map_congr_left ?_)
    intro number member
    have within := List.mem_range.mp member
    have announced : 4 * number < Length.ofCode draft.content.isFd dlc := by
      rw [← length]
      simp only [Message.wordCount] at within
      omega
    rw [words]
    exact holds.words number (by rw [agreed]; omega) announced
  have code : (station.message running.receiveBuffer).code =
      if overrun then .rxOverrun else .rxFull := by
    simp only [Message.code, message, control]
    exact holds.code
  rw [← sound.buffers.receiveSize, ← time]
  exact Message.reading_eq holds.coded shown holds.plain (ident.trans holds.ident) rfl payload code

theorem not_busy_of_holds {draft : Draft} {dlc time : Nat} {overrun : Bool} (sound : running.Sound)
    (serves : station.Serves running.settings)
    (holds : station.Holds running draft dlc overrun time) :
    (station.codeOf running.receiveBuffer).isBusy = false := by
  rw [codeOf_eq (by rw [serves.layout, sound.buffers.receiveSize]), holds.code]
  cases overrun <;> rfl

omit running after in
theorem code_complete (station : Station) {buffer : Nat}
    (bound : buffer < station.layout.bufferCount) :
    (station.complete buffer).code buffer =
      if MbCs.rtr.isSet (station.control buffer) then .rxEmpty else .txInactive := by
  have small : buffer < 32 := Nat.lt_of_lt_of_le bound (DataSize.bufferCount_le _)
  have room := station.layout.place_le bound
  have words := station.layout.bufferWords_cases
  simp only [ramWords] at room
  rw [code, control_eq, (station.keepsSetup_complete small).layout,
    station.ram_complete small (by omega), if_pos rfl, stamp,
    Field.get_set_of_disjoint (by decide), Field.get_set]
  split <;> rfl

theorem code_of_applied {plan : Plan} {settings : Settings} {mcr : UInt32} {before : Station}
    (applied : plan.Applied settings mcr before after)
    (agreed : after.layout = plan.receiveBuffer.size) {buffer : Nat}
    (bound : buffer < after.layout.bufferCount) (apart : buffer ≠ plan.receiveBuffer.index) :
    after.code buffer = .rxInactive := by
  have room := after.layout.place_le bound
  have words := after.layout.bufferWords_cases
  have inside : 0 < after.layout.bufferWords := by omega
  have ranges := after.layout.apart_of_ne apart inside
  have place : plan.receiveBuffer.controlWord =
      plan.receiveBuffer.index * after.layout.bufferWords := by rw [agreed]; rfl
  have zero : plan.armed settings (buffer * after.layout.bufferWords) = 0 := by
    rw [Plan.armed, Buffer.identWord, if_neg (by omega), if_neg (by omega)]
  rw [code, control_eq, applied.ram _ (by omega), zero, Field.get_zero]
  rfl

theorem control_of_applied {plan : Plan} {settings : Settings} {mcr : UInt32} {before : Station}
    (applied : plan.Applied settings mcr before after)
    (agreed : after.layout = plan.receiveBuffer.size) :
    after.control plan.receiveBuffer.index = Buffer.armedControl settings.mode.isFd := by
  have word : plan.receiveBuffer.index * after.layout.bufferWords =
      plan.receiveBuffer.controlWord := by rw [agreed]; rfl
  rw [control_eq, word, applied.ram _ plan.receiveBuffer.controlWord_lt, Plan.armed, if_pos rfl]

theorem armed_of_applied {plan : Plan} {settings : Settings} {mcr : UInt32} {before : Station}
    (applied : plan.Applied settings mcr before after)
    (agreed : after.layout = plan.receiveBuffer.size) :
    after.code plan.receiveBuffer.index = .rxEmpty := by
  rw [code, control_of_applied applied agreed]
  cases settings.mode.isFd <;> decide

theorem listens_of_applied {plan : Plan} {mcr : UInt32} {before : Station}
    (sound : running.Sound) (applied : plan.Applied running.settings mcr before after)
    (same : running.receiveBuffer = plan.receiveBuffer)
    (serves : after.Serves running.settings) : after.Listens running := by
  have agreed : after.layout = plan.receiveBuffer.size := by
    rw [serves.layout, ← same, sound.buffers.receiveSize]
  have ident : after.ident running.receiveBuffer.index =
      (Identifier.standard running.settings.buffers.receiveId).toWord := by
    have bound := plan.receiveBuffer.identWord_lt
    have word : running.receiveBuffer.index * after.layout.bufferWords + 1 =
        plan.receiveBuffer.identWord := by rw [agreed, same]; rfl
    rw [ident_eq, word, applied.ram _ bound, Plan.armed, Buffer.identWord, if_neg (by omega),
      if_pos rfl]
  refine ⟨?_, ?_, ident, ?_⟩
  · rw [same, armed_of_applied applied agreed]
    rfl
  · rw [same, control_of_applied applied agreed]
    cases running.settings.mode.isFd <;> decide
  · intro other otherBound apart
    rw [code_of_applied applied agreed otherBound (by rw [← same]; exact apart)]
    rfl

end

end Station

end BufferedCan
