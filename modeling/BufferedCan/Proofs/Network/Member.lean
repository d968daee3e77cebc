import BufferedCan.Proofs.Controller.Reception
import BufferedCan.Proofs.Network.Exchange

/-! One controller and what is left of it in the abstract network. What happens to the controller, a
call of its software or a frame that passes, does to the member what the network says. -/

namespace BufferedCan

namespace Station

structure Parked (station : Station) : Prop where
  responsive : station.stalled = false
  awake : Mcr.mdis.isSet (station.memory.get .mcr) = false
  silent : station.running = false
  hears : Mcr.srxdis.isSet (station.memory.get .mcr) = false
  time : station.time = 0
  flags : station.memory.get .iflag1 = 0
  status : station.memory.get .esr1 = 0
  counters : station.memory.get .ecr = 0

/-- What lies in the receive buffer is what lies in the slot. -/
inductive Slot (running : Running) (station : Station) : Option Arrival → Prop
  | empty (flag : flagSet running.receiveBuffer.index (station.memory.get .iflag1) = false) :
      Slot running station none
  | full {arrival : Arrival}
      (flag : flagSet running.receiveBuffer.index (station.memory.get .iflag1) = true)
      (holds : station.Holds running arrival.frame.draft arrival.frame.lengthCode arrival.overrun
        arrival.timestamp) :
      Slot running station (some arrival)

/-- The controller of a member. `busy` says whether a frame of it waits to be sent. -/
structure Hosts (running : Running) (member : Member) (busy : Bool) (station : Station) :
    Prop where
  sound : running.Sound
  settings : member.settings = running.settings
  serves : station.Serves running.settings
  hears : Mcr.srxdis.isSet (station.memory.get .mcr) = false
  listens : station.Listens running
  waiting : busy = true → station.code running.transmitBuffer.index = .txData
  idle : busy = false → (station.code running.transmitBuffer.index).isInactive = true
  slot : Slot running station member.slot
  time : station.time = member.time
  small : member.time < 65536
  status : station.memory.get .esr1 = 0
  counters : station.memory.get .ecr = 0

theorem parked_taken (clock : Clock) : (reset.taken clock).Parked where
  responsive := rfl
  awake := reset.mdis_taken clock
  silent := by
    rw [running]
    simp only [asksForFreeze_taken, Bool.not_true, Bool.and_false]
  hears := by
    rw [Field.isSet, get_mcr_taken reset clock {} (by decide) (by decide) (by decide), get_reset]
    decide
  time := by rw [Station.time, get_taken reset clock (by decide) (by decide), get_reset]; rfl
  flags := by rw [get_taken reset clock (by decide) (by decide), get_reset]
  status := by rw [get_taken reset clock (by decide) (by decide), get_reset]
  counters := by rw [get_taken reset clock (by decide) (by decide), get_reset]

theorem Parked.start {frozen : Frozen} {plan : Plan} {station : Station} (parked : station.Parked)
    (node : Nat) (waiting : List Transfer)
    (found : frozen.settings.plan frozen.clock = .ok (.ok plan)) :
    ∃ after, after.memory.get .iflag1 = 0 ∧ after.time = 0 ∧
      if frozen.settings.pollLimit = 0 then
        frozen.start.run (Station.device node) (station, waiting) =
          (.ok (.error (.timeout .freezeExit)), after, waiting)
      else ∃ running : Running,
        frozen.start.run (Station.device node) (station, waiting) =
          (.ok (.ok running), after, waiting) ∧
        after.Hosts running { settings := frozen.settings, slot := none, time := 0 } false := by
  obtain ⟨after, starting, applied⟩ := Frozen.run_start node station waiting found
  have planned := Settings.planned_of_ok found
  rw [Frozen.verdict_of_responsive plan parked.responsive parked.awake] at starting
  have same (register : Register) (plain : register = .timer ∨ register = .iflag1 ∨
      register = .esr1 ∨ register = .ecr) :
      after.memory.get register = station.memory.get register := by
    rcases plain with rfl | rfl | rfl | rfl <;> exact applied.get _ (by decide)
  have time : after.time = 0 := by rw [Station.time, same _ (by simp)]; exact parked.time
  have flags : after.memory.get .iflag1 = 0 := by rw [same _ (by simp), parked.flags]
  refine ⟨after, flags, time, ?_⟩
  split
  next impatient => rw [starting, if_pos impatient]
  next patient =>
    rw [if_neg patient] at starting
    have serves := serves_of_applied planned applied parked.awake
    have sound : Running.Sound
        { clock := frozen.clock
          settings := frozen.settings
          transmitBuffer := plan.transmitBuffer
          receiveBuffer := plan.receiveBuffer } :=
      ⟨planned.buffers, Nat.pos_of_ne_zero patient⟩
    have agreed : after.layout = plan.receiveBuffer.size := by
      rw [serves.layout, planned.buffers.receiveSize]
    have code := code_of_applied applied agreed (transmit_lt sound serves) planned.buffers.apart
    refine ⟨_, starting, ⟨sound, rfl, serves, ?_, listens_of_applied sound applied rfl serves, ?_, ?_,
      .empty ?_, time, Nat.zero_lt_succ _, ?_, ?_⟩⟩
    · rw [applied.mcr, Field.isSet, Plan.get_finalMcr _ _ _ {} (by decide) (by decide) (by decide)
        (by decide)]
      exact parked.hears
    · intro sending
      cases sending
    · intro _
      rw [code]
      rfl
    · rw [flags]
      exact Nat.zero_testBit _
    · rw [same _ (by simp), parked.status]
    · rw [same _ (by simp), parked.counters]

theorem Slot.flag {running : Running} {station : Station} {slot : Option Arrival}
    (matched : Slot running station slot) :
    flagSet running.receiveBuffer.index (station.memory.get .iflag1) = slot.isSome := by
  cases matched with
  | empty flag => exact flag
  | full flag _ => exact flag

section
variable {running : Running} {member : Member} {busy : Bool} {station after : Station}

theorem Slot.of_touches {slot : Option Arrival} {buffer : Nat}
    (matched : Slot running station slot) (touched : station.Touches buffer after)
    (apart : running.receiveBuffer.index ≠ buffer)
    (bound : running.receiveBuffer.index < station.layout.bufferCount)
    (same : flagSet running.receiveBuffer.index (after.memory.get .iflag1) =
      flagSet running.receiveBuffer.index (station.memory.get .iflag1)) :
    Slot running after slot := by
  cases matched with
  | empty flag => exact .empty (same.trans flag)
  | full flag holds => exact .full (same.trans flag) (holds.of_touches touched apart bound)

theorem Hosts.receive_lt (hosts : station.Hosts running member busy) :
    running.receiveBuffer.index < station.layout.bufferCount :=
  Station.receive_lt hosts.sound hosts.serves

theorem Hosts.transmit_lt (hosts : station.Hosts running member busy) :
    running.transmitBuffer.index < station.layout.bufferCount :=
  Station.transmit_lt hosts.sound hosts.serves

theorem Hosts.outgoing_of_touches (hosts : station.Hosts running member busy)
    (touched : station.Touches running.receiveBuffer.index after) (node : Nat) :
    after.outgoing node running.transmitBuffer.index =
      station.outgoing node running.transmitBuffer.index :=
  touched.outgoing hosts.sound.buffers.apart hosts.transmit_lt node

theorem Hosts.of_touches_receive (hosts : station.Hosts running member busy)
    (touched : station.Touches running.receiveBuffer.index after) {next : Member}
    (settings : next.settings = member.settings) (listens : after.Listens running)
    (slot : Slot running after next.slot) (time : after.time = next.time)
    (small : next.time < 65536) : after.Hosts running next busy where
  sound := hosts.sound
  settings := settings.trans hosts.settings
  serves := hosts.serves.keep touched.setup
  hears := by rw [touched.setup.mcr, hosts.hears]
  listens := listens
  waiting sending := by
    rw [touched.code hosts.sound.buffers.apart hosts.transmit_lt, hosts.waiting sending]
  idle resting := by
    rw [touched.code hosts.sound.buffers.apart hosts.transmit_lt, hosts.idle resting]
  slot := slot
  time := time
  small := small
  status := by rw [touched.setup.get .esr1 (by decide) (by decide), hosts.status]
  counters := by rw [touched.setup.get .ecr (by decide) (by decide), hosts.counters]

theorem Hosts.listens_of_same (hosts : station.Hosts running member busy)
    (touched : ∀ buffer, station.Touches buffer after) : after.Listens running := by
  have apart := hosts.sound.buffers.apart
  refine hosts.listens.of_touches (touched running.transmitBuffer.index) apart.symm
    hosts.receive_lt ?_
  rw [(touched running.receiveBuffer.index).code apart hosts.transmit_lt]
  exact hosts.listens.alone _ hosts.transmit_lt apart

theorem Hosts.hear (hosts : station.Hosts running member busy) {transfer : Transfer} {frame : Frame}
    (carries : transfer.Carries frame.draft frame.lengthCode) :
    (station.hear transfer).2.Hosts running (member.hear frame) busy := by
  have calm : station.time < 65536 := by rw [hosts.time]; exact hosts.small
  have follows := follows_eq hosts.serves carries
  have apart := hosts.sound.buffers.apart
  have timed := (station.hear_calm transfer calm).2
  rw [hear_eq hosts.sound hosts.serves hosts.listens carries] at timed ⊢
  rw [follows] at timed
  have same : member.follows frame =
      (!frame.draft.content.isFd || running.settings.mode.isFd) := by
    rw [Member.follows, hosts.settings]
  rw [Member.hear, same]
  split
  next heard =>
    rw [if_pos heard, if_pos heard, hosts.time] at timed
    have small : (member.time + 1) % 65536 < 65536 := Nat.mod_lt _ (by decide)
    rw [hosts.settings]
    split
    next addressed =>
      rw [if_pos addressed] at timed
      have touched := touches_stored_frame hosts.sound hosts.serves transfer
      refine hosts.of_touches_receive touched hosts.settings.symm
        (listens_stored_frame hosts.sound hosts.serves carries hosts.listens addressed) ?_ timed small
      refine .full (flag_stored_frame hosts.sound hosts.serves transfer) ?_
      have holds := holds_stored_frame hosts.sound hosts.serves carries calm
      rw [hosts.slot.flag, hosts.time] at holds
      exact holds
    next other =>
      rw [if_neg other] at timed
      refine hosts.of_touches_receive (touches_tick _ _) hosts.settings.symm
        (hosts.listens_of_same (touches_tick station)) ?_ timed small
      exact hosts.slot.of_touches (touches_tick station running.transmitBuffer.index) apart.symm
        hosts.receive_lt (by rw [get_tick _ (by decide)])
  next deaf => exact hosts

theorem Hosts.touches_hear (hosts : station.Hosts running member busy) (transfer : Transfer)
    {frame : Frame} (carries : transfer.Carries frame.draft frame.lengthCode) :
    station.Touches running.receiveBuffer.index (station.hear transfer).2 := by
  rw [hear_eq hosts.sound hosts.serves hosts.listens carries]
  split
  · split
    · exact touches_stored_frame hosts.sound hosts.serves transfer
    · exact touches_tick _ _
  · exact ⟨.refl station, fun _ _ _ => rfl⟩

theorem Hosts.complete (hosts : station.Hosts running member true)
    (data : MbCs.rtr.isSet (station.control running.transmitBuffer.index) = false) :
    (station.complete running.transmitBuffer.index).Hosts running member false := by
  have apart := hosts.sound.buffers.apart
  have small : running.transmitBuffer.index < 32 :=
    Nat.lt_of_lt_of_le hosts.transmit_lt (DataSize.bufferCount_le _)
  have touched := station.touches_complete small
  have code := station.code_complete hosts.transmit_lt
  rw [data, if_neg Bool.false_ne_true] at code
  refine ⟨hosts.sound, hosts.settings, hosts.serves.keep touched.setup, ?_, ?_, ?_, ?_, ?_, ?_,
    hosts.small, ?_, ?_⟩
  · rw [touched.setup.mcr, hosts.hears]
  · exact hosts.listens.of_touches touched apart.symm hosts.receive_lt (by rw [code]; rfl)
  · intro sending
    cases sending
  · intro _
    rw [code]
    rfl
  · refine hosts.slot.of_touches touched apart.symm hosts.receive_lt ?_
    rw [station.iflag1_complete small, flagSet_raise _ _ small]
    simp [apart]
  · rw [station.time_complete small, hosts.time]
  · rw [touched.setup.get .esr1 (by decide) (by decide), hosts.status]
  · rw [touched.setup.get .ecr (by decide) (by decide), hosts.counters]

theorem Hosts.readTimer (hosts : station.Hosts running member busy) (timerReads : Nat) :
    Station.Hosts running member busy { station with timerReads := timerReads } := by
  have touched := station.touches_timerReads timerReads
  exact hosts.of_touches_receive (touched _) rfl (hosts.listens_of_same touched)
    (hosts.slot.of_touches (touched running.transmitBuffer.index) hosts.sound.buffers.apart.symm
      hosts.receive_lt rfl) hosts.time hosts.small

theorem Hosts.read (hosts : station.Hosts running member busy) :
    Station.Hosts running { member with slot := none } busy
      ({ station with timerReads := station.timerReads + 1 }.setRegister .iflag1
        (station.memory.get .iflag1 &&& ~~~flagWord running.receiveBuffer.index)) := by
  have small : running.receiveBuffer.index < 32 :=
    Nat.lt_of_lt_of_le hosts.receive_lt (DataSize.bufferCount_le _)
  have touched := station.touches_read
    (station.memory.get .iflag1 &&& ~~~flagWord running.receiveBuffer.index)
  refine hosts.of_touches_receive (touched _) rfl (hosts.listens_of_same touched) (.empty ?_) ?_
    hosts.small
  · rw [get_setRegister, if_pos rfl, flagSet_clear _ small small]
    simp
  · rw [Station.time, get_setRegister, if_neg (by decide)]
    exact hosts.time

theorem Hosts.store (hosts : station.Hosts running member busy) {message : Message}
    (stored : running.transmitBuffer.Stored message .txData (station.setRegister .iflag1
      (station.memory.get .iflag1 &&& ~~~flagWord running.transmitBuffer.index)) after) :
    after.Hosts running member true := by
  have apart := hosts.sound.buffers.apart
  have agreed : station.layout = running.transmitBuffer.size := by
    rw [hosts.serves.layout, hosts.sound.buffers.transmitSize]
  have small : running.transmitBuffer.index < 32 :=
    Nat.lt_of_lt_of_le hosts.transmit_lt (DataSize.bufferCount_le _)
  have receiveSmall : running.receiveBuffer.index < 32 :=
    Nat.lt_of_lt_of_le hosts.receive_lt (DataSize.bufferCount_le _)
  have cleared := station.touches_setFlags
    (station.memory.get .iflag1 &&& ~~~flagWord running.transmitBuffer.index)
    running.transmitBuffer.index
  have touched := cleared.trans (touches_stored stored (cleared.setup.layout.trans agreed))
  have code : after.code running.transmitBuffer.index = .txData := by
    rw [← codeOf_eq (touched.setup.layout.trans agreed), codeOf, stored.control, Field.get_set]
    rfl
  refine ⟨hosts.sound, hosts.settings, hosts.serves.keep touched.setup, ?_, ?_, fun _ => code, ?_,
    ?_, ?_, hosts.small, ?_, ?_⟩
  · rw [touched.setup.mcr, hosts.hears]
  · exact hosts.listens.of_touches touched apart.symm hosts.receive_lt (by rw [code]; rfl)
  · intro resting
    cases resting
  · refine hosts.slot.of_touches touched apart.symm hosts.receive_lt ?_
    rw [stored.get, get_setRegister, if_pos rfl, flagSet_clear _ small receiveSmall]
    simp [apart]
  · rw [Station.time, stored.get, get_setRegister, if_neg (by decide)]
    exact hosts.time
  · rw [touched.setup.get .esr1 (by decide) (by decide), hosts.status]
  · rw [touched.setup.get .ecr (by decide) (by decide), hosts.counters]

end

end Station

theorem Running.objection?_eq {running : Running} (sound : running.Sound) (draft : Draft)
    {lengthCode : Nat} (small : lengthCode < 16) :
    running.objection? (draft.message lengthCode) =
      running.settings.refusal? draft.content
        (Length.ofCode draft.content.isFd lengthCode) := by
  have shown := draft.shown_control small
  have remote : (draft.message lengthCode).isRemote = draft.content.isRemote := shown.rtr
  have fd : (draft.message lengthCode).isFd = draft.content.isFd := shown.edl
  have switches : (draft.message lengthCode).switchesRate = draft.content.switchesRate := shown.brs
  simp only [objection?, Settings.refusal?, remote, fd, switches, Draft.length_message small,
    sound.buffers.transmitSize]

theorem Settings.plain_of_refusal? {settings : Settings} {content : Content} {length : Nat}
    (admitted : settings.refusal? content length = none) :
    content.isRemote = false ∧ length ≤ settings.mode.dataSize.bytes := by
  unfold refusal? at admitted
  cases remote : content.isRemote with
  | true => simp [remote] at admitted
  | false =>
      refine ⟨rfl, ?_⟩
      simp only [remote] at admitted
      split at admitted
      · simp at admitted
      · split at admitted
        · simp at admitted
        · split at admitted
          · simp at admitted
          · split at admitted
            · simp at admitted
            · omega

theorem Buffer.Stored.carries {buffer : Buffer} {draft : Draft} {lengthCode : Nat}
    {before after : Station} (stored : buffer.Stored (draft.message lengthCode) .txData before after)
    (agreed : after.layout = buffer.size)
    (coded : Length.code? draft.content.isFd draft.content.length = some lengthCode)
    (plain : draft.content.isRemote = false)
    (fits : Length.ofCode draft.content.isFd lengthCode ≤ buffer.size.bytes) (node : Nat) :
    (after.outgoing node buffer.index).Carries draft lengthCode := by
  have small := Length.code?_lt coded
  have shown := draft.shown_control small
  have control : after.control buffer.index = after.memory.ram buffer.controlWord := by
    rw [Station.control_eq, agreed]
    rfl
  have ident : after.ident buffer.index = after.memory.ram buffer.identWord := by
    rw [Station.ident_eq, agreed]
    rfl
  refine ⟨coded, plain, ?_, ?_, ?_⟩
  · rw [Station.outgoing, control, stored.control]
    exact shown.set_code _
  · rw [Station.outgoing, ident, stored.ident]
    rfl
  · intro number announced
    have words := buffer.size.four_mul_payloadWords
    have within : number < buffer.size.payloadWords := by omega
    have count : number < (draft.message lengthCode).wordCount := by
      rw [Message.wordCount, Draft.length_message small]
      omega
    have place : after.payloadWord buffer.index number =
        after.memory.ram (buffer.payloadWord number) := by
      rw [Station.payloadWord, agreed]
      rfl
    rw [Station.outgoing, Station.payloadWords_eq, agreed, List.getD_eq_getElem?_getD,
      List.getElem?_map, List.getElem?_range within, Option.map_some, Option.getD_some, place,
      stored.payload number (by omega)]
    rfl

end BufferedCan
