import BufferedCan.Proofs.Controller.Reception

/-! What a controller looks like to the software that holds it. Software that has frozen a controller
finds it awake and in freeze mode; software that has set one up finds it on the bus with its settings
in force. A controller that answers no longer gets from neither of the two states to the other. -/

namespace BufferedCan

namespace Station

structure Halted (clock : Clock) (station : Station) : Prop where
  awake : Mcr.mdis.isSet (station.memory.get .mcr) = false
  asks : Mcr.asksForFreeze (station.memory.get .mcr) = true
  frozen : Mcr.frzack.isSet (station.memory.get .mcr) = true
  clock : Ctrl1.clksrc.isSet (station.memory.get .ctrl1) = (clock.source == .peripheral)

structure Active (running : Running) (station : Station) : Prop where
  sound : running.Sound
  serves : station.Serves running.settings
  ready : Mcr.notrdy.isSet (station.memory.get .mcr) = false
  thawed : Mcr.frzack.isSet (station.memory.get .mcr) = false
  powered : Mcr.lpmack.isSet (station.memory.get .mcr) = false
  clock : Ctrl1.clksrc.isSet (station.memory.get .ctrl1) = (running.clock.source == .peripheral)

variable {before after station : Station} {running : Running} {clock : Clock}

theorem Halted.keep (halted : before.Halted clock) (kept : before.KeepsSetup after) :
    after.Halted clock where
  awake := by rw [kept.mcr, halted.awake]
  asks := by rw [kept.mcr, halted.asks]
  frozen := by rw [kept.mcr, halted.frozen]
  clock := by rw [kept.get .ctrl1 (by decide) (by decide), halted.clock]

theorem Active.keep (active : before.Active running) (kept : before.KeepsSetup after) :
    after.Active running where
  sound := active.sound
  serves := active.serves.keep kept
  ready := by rw [kept.mcr, active.ready]
  thawed := by rw [kept.mcr, active.thawed]
  powered := by rw [kept.mcr, active.powered]
  clock := by rw [kept.get .ctrl1 (by decide) (by decide), active.clock]

theorem halted_taken (station : Station) (clock : Clock) (responsive : station.stalled = false) :
    (station.taken clock).Halted clock where
  awake := station.mdis_taken clock
  asks := station.asksForFreeze_taken clock
  frozen := station.frzack_taken clock responsive
  clock := by
    rw [ctrl1_taken]
    exact Field.isSet_put_bit 13 (by decide) _ _

theorem clksrc_content (rates : Rates) (settings : Settings) (word : UInt32) :
    Ctrl1.clksrc.isSet (rates.content settings .ctrl1 word) = Ctrl1.clksrc.isSet word := by
  simp only [Rates.content]
  rw [Field.isSet_put_of_disjoint (by decide)]
  cases rates with
  | classic prescaler =>
      simp only [Ctrl1.withTiming]
      rw [Field.isSet_set_of_disjoint (by decide), Field.isSet_set_of_disjoint (by decide),
        Field.isSet_set_of_disjoint (by decide), Field.isSet_set_of_disjoint (by decide),
        Field.isSet_set_of_disjoint (by decide)]
  | flexible => rfl

theorem frzack_finalMcr_of_stalled (plan : Plan) (settings : Settings)
    (stalled : station.stalled = true) :
    Mcr.frzack.isSet (plan.finalMcr settings station) =
      Mcr.frzack.isSet (station.memory.get .mcr) := by
  have stays : (station.setRegister .mcr (plan.frozenMcr settings station)).stalled = true :=
    stalled
  rw [Plan.finalMcr, answer_of_stalled stays, Mcr.unacknowledged, Mcr.frzack_withStatus,
    get_setRegister, if_pos rfl, Plan.frozenMcr, answer_of_stalled stalled, Mcr.unacknowledged,
    Mcr.frzack_withStatus]

theorem lpmack_finalMcr_of_responsive (plan : Plan) (settings : Settings)
    (responsive : station.stalled = false) :
    Mcr.lpmack.isSet (plan.finalMcr settings station) =
      Mcr.mdis.isSet (station.memory.get .mcr) := by
  have low := plan.asksForLowPower_finalMcr settings station
  have stays : (station.setRegister .mcr (plan.frozenMcr settings station)).stalled = false :=
    responsive
  rw [← Mcr.asksForLowPower, ← low, Plan.finalMcr, answer_of_responsive stays,
    Mcr.lpmack_acknowledged]
  simp only [Mcr.asksForLowPower]
  rw [← answer_of_responsive stays, isSet_answer _ {}]

theorem Halted.responsive {frozen : Frozen} {plan : Plan} (halted : before.Halted clock)
    (accepted : frozen.verdict plan (plan.finalMcr frozen.settings before) = .ok running) :
    before.stalled = false := by
  obtain ⟨-, thawed, -, -⟩ := Frozen.verdict_eq_ok_iff.mp accepted
  rw [← Bool.not_eq_true]
  intro stalled
  rw [frzack_finalMcr_of_stalled plan frozen.settings stalled, halted.frozen] at thawed
  cases thawed

theorem Halted.start {frozen : Frozen} {plan : Plan} (halted : before.Halted frozen.clock)
    (planned : frozen.settings.Planned frozen.clock plan)
    (applied : plan.Applied frozen.settings (plan.finalMcr frozen.settings before) before after)
    (accepted : frozen.verdict plan (plan.finalMcr frozen.settings before) = .ok running) :
    after.Active running := by
  have sound := Frozen.sound_of_verdict planned accepted
  have responsive := halted.responsive accepted
  obtain ⟨-, thawed, ready, rfl⟩ := Frozen.verdict_eq_ok_iff.mp accepted
  refine ⟨sound, serves_of_applied planned applied halted.awake, ?_, ?_, ?_, ?_⟩
  · rw [applied.mcr, ready]
  · rw [applied.mcr, thawed]
  · rw [applied.mcr, lpmack_finalMcr_of_responsive plan frozen.settings responsive, halted.awake]
  · rw [applied.get .ctrl1 (by decide), clksrc_content, halted.clock]

theorem Active.freeze (active : station.Active running)
    (reached : Handshake.freezeEntry.reached station.frozenWord = true) :
    (station.setRegister .mcr station.frozenWord).Halted running.clock := by
  have shown : Mcr.frzack.isSet station.frozenWord = true := reached
  have awake : Mcr.mdis.isSet (station.memory.get .mcr) = false := by
    have taking := active.serves.running
    simp only [Station.running, Bool.and_eq_true, Bool.not_eq_true'] at taking
    exact taking.1
  refine ⟨?_, ?_, ?_, ?_⟩
  · rw [get_setRegister, if_pos rfl, frozenWord, isSet_answer _ {}]
    exact (Mcr.asksForLowPower_freezing _).trans awake
  · rw [get_setRegister, if_pos rfl, frozenWord, Mcr.asksForFreeze, isSet_answer _ {},
      isSet_answer _ {}]
    exact Mcr.asksForFreeze_freezing _
  · rw [get_setRegister, if_pos rfl, shown]
  · rw [get_setRegister, if_neg (by decide), active.clock]

/-- What a call that sends may change: the transmit buffer and its flag. The transfers it asks for are
what the buffer then holds. -/
structure Sent (running : Running) (node : Nat) (before after : Station)
    (sent : List Transfer) : Prop where
  touches : before.Touches running.transmitBuffer.index after
  flags : ∀ other < 32, other ≠ running.transmitBuffer.index →
    flagSet other (after.memory.get .iflag1) = flagSet other (before.memory.get .iflag1)
  timer : after.memory.get .timer = before.memory.get .timer
  asked : ∀ transfer ∈ sent, transfer = after.outgoing node running.transmitBuffer.index

theorem Sent.nothing (running : Running) (node : Nat) (station : Station) :
    Sent running node station station [] :=
  ⟨⟨.refl station, fun _ _ _ => rfl⟩, fun _ _ _ => rfl, rfl, by simp⟩

theorem Active.transmit (active : station.Active running) (node : Nat) (waiting : List Transfer)
    (message : Message) :
    ∃ answer after sent, (running.transmit message).run (Station.device node) (station, waiting) =
      (answer, after, waiting ++ sent) ∧ Sent running node station after sent := by
  have agreed : station.layout = running.transmitBuffer.size := by
    rw [active.serves.layout, active.sound.buffers.transmitSize]
  cases objected : running.objection? message with
  | some error =>
      refine ⟨.error (.failed error), station, [], ?_, .nothing running node station⟩
      rw [Running.run_transmit_of_objection node station waiting objected, List.append_nil]
  | none =>
      by_cases free : (station.codeOf running.transmitBuffer).isInactive = true
      · obtain ⟨after, stored, transmitting⟩ :=
          Running.run_transmit_of_free node waiting agreed objected free
        have small : running.transmitBuffer.index < 32 :=
          Nat.lt_of_lt_of_le running.transmitBuffer.index_lt (DataSize.bufferCount_le _)
        have cleared := station.touches_setFlags (station.memory.get .iflag1 &&&
          ~~~flagWord running.transmitBuffer.index) running.transmitBuffer.index
        refine ⟨.ok (), after, _, transmitting, ?_, ?_, ?_, ?_⟩
        · exact cleared.trans (touches_stored stored (cleared.setup.layout.trans agreed))
        · intro other bound apart
          rw [stored.get, get_setRegister, if_pos rfl, flagSet_clear _ small bound]
          simp [apart.symm]
        · rw [stored.get, get_setRegister, if_neg (by decide)]
        · intro transfer member
          exact List.mem_singleton.mp member
      · rw [Bool.not_eq_true] at free
        refine ⟨.error .wouldBlock, station, [], ?_, .nothing running node station⟩
        rw [Running.run_transmit_of_busy node waiting objected free, List.append_nil]

theorem Active.transmitDraft (active : station.Active running) (node : Nat)
    (waiting : List Transfer) (draft : Draft) :
    ∃ answer after sent,
      (running.transmitDraft draft).run (Station.device node) (station, waiting) =
        (answer, after, waiting ++ sent) ∧ Sent running node station after sent := by
  unfold Running.transmitDraft
  split
  next =>
    exact ⟨.error (.failed .tooMuchData), station, [], by rw [List.append_nil]; rfl,
      .nothing running node station⟩
  next message _ => exact active.transmit node waiting message

end Station

end BufferedCan
