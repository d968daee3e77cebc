import BufferedCan.Controller.Setup
import BufferedCan.Proofs.Controller.Access

/-! Taking over a controller and freezing it. A controller that answers at all answers at once, so a
wait either ends with its first look or never. -/

namespace BufferedCan

namespace Mcr

section
variable (lowPower frozen notReady : Bool) (word : UInt32)

theorem lpmack_withStatus : lpmack.isSet (withStatus lowPower frozen notReady word) = lowPower := by
  rw [withStatus, Field.isSet_put_of_disjoint (by decide), Field.isSet_put_of_disjoint (by decide)]
  exact Field.isSet_put_bit 20 (by decide) lowPower word

theorem frzack_withStatus : frzack.isSet (withStatus lowPower frozen notReady word) = frozen := by
  rw [withStatus, Field.isSet_put_of_disjoint (by decide)]
  exact Field.isSet_put_bit 24 (by decide) frozen _

theorem notrdy_withStatus : notrdy.isSet (withStatus lowPower frozen notReady word) = notReady :=
  Field.isSet_put_bit 27 (by decide) notReady _

end

theorem lpmack_acknowledged (word : UInt32) :
    lpmack.isSet (acknowledged word) = asksForLowPower word := by
  unfold acknowledged
  split
  next asked => rw [lpmack_withStatus, asked]
  next awake => split <;> simpa [lpmack_withStatus] using awake

theorem frzack_acknowledged (word : UInt32) :
    frzack.isSet (acknowledged word) = (!asksForLowPower word && asksForFreeze word) := by
  unfold acknowledged
  split
  next asked => simp [frzack_withStatus, asked]
  next awake => split <;> simp_all [frzack_withStatus]

theorem notrdy_acknowledged (word : UInt32) :
    notrdy.isSet (acknowledged word) = (asksForLowPower word || asksForFreeze word) := by
  unfold acknowledged
  split
  next asked => simp [notrdy_withStatus, asked]
  next awake => split <;> simp_all [notrdy_withStatus]

def freezing (word : UInt32) : UInt32 := halt.put true (frz.put true word)

def thawing (word : UInt32) : UInt32 := halt.put false (frz.put false word)

theorem asksForFreeze_freezing (word : UInt32) : asksForFreeze (freezing word) = true := by
  have apart : frz.Disjoint halt := by decide
  simp [asksForFreeze, freezing, Field.isSet_put_bit, Field.isSet_put_of_disjoint apart]

theorem asksForLowPower_freezing (word : UInt32) :
    asksForLowPower (freezing word) = asksForLowPower word := by
  rw [asksForLowPower, freezing, Field.isSet_put_of_disjoint (by decide),
    Field.isSet_put_of_disjoint (by decide), asksForLowPower]

theorem asksForFreeze_thawing (word : UInt32) : asksForFreeze (thawing word) = false := by
  simp [asksForFreeze, thawing, Field.isSet_put_bit]

theorem asksForLowPower_thawing (word : UInt32) :
    asksForLowPower (thawing word) = asksForLowPower word := by
  rw [asksForLowPower, thawing, Field.isSet_put_of_disjoint (by decide),
    Field.isSet_put_of_disjoint (by decide), asksForLowPower]

end Mcr

namespace Station

variable (station : Station)

def frozenWord : UInt32 := station.answer (Mcr.freezing (station.memory.get .mcr))

theorem answer_of_stalled {station : Station} (stalled : station.stalled = true) (word : UInt32) :
    station.answer word = Mcr.unacknowledged (station.memory.get .mcr) word := by
  rw [answer, if_pos stalled]

theorem answer_of_responsive {station : Station} (responsive : station.stalled = false)
    (word : UInt32) : station.answer word = Mcr.acknowledged word := by
  simp [answer, responsive]

def disabled : Station :=
  station.setRegister .mcr (station.answer (Mcr.mdis.put true (station.memory.get .mcr)))

def clocked (clock : Clock) : Station :=
  let selected := station.disabled.setRegister .ctrl1
    (Ctrl1.clksrc.put (clock.source == .peripheral) (station.memory.get .ctrl1))
  selected.setRegister .mcr
    (selected.answer (Mcr.mdis.put false (station.disabled.memory.get .mcr)))

def taken (clock : Clock) : Station :=
  (station.clocked clock).setRegister .mcr (station.clocked clock).frozenWord

section
variable (clock : Clock)

theorem mcr_clocked (responsive : station.stalled = false) :
    (station.clocked clock).memory.get .mcr =
      Mcr.acknowledged (Mcr.mdis.put false (station.disabled.memory.get .mcr)) := by
  rw [clocked, get_setRegister, if_pos rfl, answer_of_responsive]
  exact responsive

theorem lpmack_clocked (stalled : station.stalled = true) :
    Mcr.lpmack.isSet ((station.clocked clock).memory.get .mcr) =
      Mcr.lpmack.isSet (station.disabled.memory.get .mcr) := by
  rw [clocked, get_setRegister, if_pos rfl, answer_of_stalled, Mcr.unacknowledged,
    Mcr.lpmack_withStatus, get_setRegister, if_neg (by decide)]
  exact stalled

theorem mdis_clocked : Mcr.mdis.isSet ((station.clocked clock).memory.get .mcr) = false := by
  rw [clocked, get_setRegister, if_pos rfl, isSet_answer _ {}]
  exact Field.isSet_put_bit 31 (by decide) false _

theorem ctrl1_taken : (station.taken clock).memory.get .ctrl1 =
    Ctrl1.clksrc.put (clock.source == .peripheral) (station.memory.get .ctrl1) := by
  simp [taken, clocked, get_setRegister]

theorem get_taken {register : Register} (notMcr : register ≠ .mcr) (notCtrl1 : register ≠ .ctrl1) :
    (station.taken clock).memory.get register = station.memory.get register := by
  simp [taken, clocked, disabled, get_setRegister, notMcr.symm, notCtrl1.symm]

theorem get_mcr_taken {field : Field} (requested : Mcr.Requested field)
    (notMdis : field.Disjoint Mcr.mdis) (notFrz : field.Disjoint Mcr.frz)
    (notHalt : field.Disjoint Mcr.halt) :
    field.get ((station.taken clock).memory.get .mcr) = field.get (station.memory.get .mcr) := by
  simp only [taken, get_setRegister, if_true, frozenWord, get_answer _ requested, Mcr.freezing,
    Field.get_put_of_disjoint notHalt, Field.get_put_of_disjoint notFrz, clocked, disabled,
    Field.get_put_of_disjoint notMdis]

theorem asksForFreeze_taken :
    Mcr.asksForFreeze ((station.taken clock).memory.get .mcr) = true := by
  rw [taken, get_setRegister, if_pos rfl, frozenWord, Mcr.asksForFreeze, isSet_answer _ {},
    isSet_answer _ {}]
  exact Mcr.asksForFreeze_freezing _

theorem frzack_taken (responsive : station.stalled = false) :
    Mcr.frzack.isSet ((station.taken clock).memory.get .mcr) = true := by
  rw [taken, get_setRegister, if_pos rfl, frozenWord,
    answer_of_responsive (show (station.clocked clock).stalled = false from responsive),
    Mcr.frzack_acknowledged, Mcr.asksForFreeze_freezing, Mcr.asksForLowPower_freezing,
    Mcr.asksForLowPower, station.mdis_clocked clock]
  rfl

theorem mdis_taken : Mcr.mdis.isSet ((station.taken clock).memory.get .mcr) = false := by
  rw [taken, get_setRegister, if_pos rfl, frozenWord, isSet_answer _ {}]
  exact (Mcr.asksForLowPower_freezing _).trans (station.mdis_clocked clock)

end

end Station

section
variable (node : Nat) (station : Station) (waiting : List Transfer)

theorem run_enterFreeze (limit : Nat) :
    (enterFreeze limit).run.run (Station.device node) (station, waiting) =
      (if 0 < limit ∧ Handshake.freezeEntry.reached station.frozenWord = true then .ok ()
        else .error (.timeout .freezeEntry),
        station.setRegister .mcr station.frozenWord, waiting) := by
  simp only [enterFreeze, Attempt.run_lift, run_modifyMcr, ExceptT.run_mk, run_await,
    Station.get_setRegister, if_true]
  rfl

theorem run_freeze (running : Running) :
    running.freeze.run.run (Station.device node) (station, waiting) =
      (if 0 < running.settings.pollLimit ∧
          Handshake.freezeEntry.reached station.frozenWord = true then
          .ok { clock := running.clock, settings := running.settings }
        else .error (.timeout .freezeEntry),
        station.setRegister .mcr station.frozenWord, waiting) := by
  simp only [Running.freeze, ExceptT.run_bind, Program.run_bind, run_enterFreeze]
  by_cases reached : 0 < running.settings.pollLimit ∧
      Handshake.freezeEntry.reached station.frozenWord = true
  · simp only [reached]
    rfl
  · simp only [reached, if_false]
    rfl

theorem run_selectClock (clock : Clock) {limit : Nat} (patient : 0 < limit) :
    (selectClock clock.source limit).run.run (Station.device node) (station, waiting) =
      if Handshake.lowPowerEntry.reached (station.disabled.memory.get .mcr) = true then
        (if Handshake.lowPowerExit.reached ((station.clocked clock).memory.get .mcr) = true then
            .ok ()
          else .error (.timeout .lowPowerExit), station.clocked clock, waiting)
      else (.error (.timeout .lowPowerEntry), station.disabled, waiting) := by
  have sameCtrl1 : station.disabled.memory.get .ctrl1 = station.memory.get .ctrl1 := by
    simp [Station.disabled, Station.get_setRegister]
  have disable : (Register.mcr.modify (Mcr.mdis.put true)).run (Station.device node)
      (station, waiting) = ((), station.disabled, waiting) :=
    run_modifyMcr node station waiting _
  have select : (Register.ctrl1.modify (Ctrl1.clksrc.put (clock.source == .peripheral))).run
      (Station.device node) (station.disabled, waiting) =
      ((), station.disabled.setRegister .ctrl1
        (Ctrl1.clksrc.put (clock.source == .peripheral) (station.memory.get .ctrl1)), waiting) := by
    rw [run_modify _ _ _ _ (by decide) (by decide) (by decide), sameCtrl1]
  have enable : (Register.mcr.modify (Mcr.mdis.put false)).run (Station.device node)
      (station.disabled.setRegister .ctrl1
        (Ctrl1.clksrc.put (clock.source == .peripheral) (station.memory.get .ctrl1)), waiting) =
      ((), station.clocked clock, waiting) := by
    rw [run_modifyMcr, Station.get_setRegister, if_neg (by decide)]
    rfl
  by_cases entered : Handshake.lowPowerEntry.reached (station.disabled.memory.get .mcr) = true
  · simp only [selectClock, Attempt.run_lift, disable, Attempt.run_mk, run_await, patient, entered,
      and_self, if_true, select, enable, ExceptT.run_mk, true_and]
  · simp only [selectClock, Attempt.run_lift, disable, Attempt.run_mk, run_await, entered,
      Bool.false_eq_true, and_false, if_false]

theorem run_attach (clock : Clock) (bitRate : UInt32) (responsive : station.stalled = false) :
    (Frozen.attach clock bitRate).run.run (Station.device node) (station, waiting) =
      (.ok { clock, settings := .ofBitRate bitRate }, station.taken clock, waiting) := by
  have patient : 0 < (Settings.ofBitRate bitRate).pollLimit := by simp [Settings.ofBitRate]
  have entered : Handshake.lowPowerEntry.reached (station.disabled.memory.get .mcr) = true := by
    simp only [Station.disabled, Station.get_setRegister, if_true,
      Station.answer_of_responsive responsive, Handshake.reached, Mcr.lpmack_acknowledged,
      Mcr.asksForLowPower, Field.isSet_put_bit]
  have left : Handshake.lowPowerExit.reached ((station.clocked clock).memory.get .mcr) = true := by
    simp [Handshake.reached, station.mcr_clocked clock responsive, Mcr.lpmack_acknowledged,
      Mcr.asksForLowPower, Field.isSet_put_bit]
  have frozen : Handshake.freezeEntry.reached (station.clocked clock).frozenWord = true := by
    have shown := station.frzack_taken clock responsive
    rw [Station.taken, Station.get_setRegister, if_pos rfl] at shown
    exact shown
  simp only [Frozen.attach, ExceptT.run_bind, Program.run_bind, run_selectClock node station waiting
    clock patient, entered, left, if_true, run_enterFreeze, patient, frozen, and_self]
  rfl

theorem run_attach_of_stalled (clock : Clock) (bitRate : UInt32) (stalled : station.stalled = true) :
    ∃ error after, (Frozen.attach clock bitRate).run.run (Station.device node) (station, waiting) =
      (.error error, after, waiting) ∧ (after = station.disabled ∨ after = station.clocked clock) := by
  have patient : 0 < (Settings.ofBitRate bitRate).pollLimit := by simp [Settings.ofBitRate]
  by_cases entered : Handshake.lowPowerEntry.reached (station.disabled.memory.get .mcr) = true
  · have stuck : ¬Handshake.lowPowerExit.reached ((station.clocked clock).memory.get .mcr) = true := by
      simpa [Handshake.reached, station.lpmack_clocked clock stalled] using entered
    refine ⟨.timeout .lowPowerExit, station.clocked clock, ?_, .inr rfl⟩
    simp only [Frozen.attach, ExceptT.run_bind, Program.run_bind, run_selectClock node station
      waiting clock patient, entered, stuck, if_true, Bool.false_eq_true, if_false]
    rfl
  · refine ⟨.timeout .lowPowerEntry, station.disabled, ?_, .inl rfl⟩
    simp only [Frozen.attach, ExceptT.run_bind, Program.run_bind, run_selectClock node station
      waiting clock patient, entered, Bool.false_eq_true, if_false]
    rfl

end

end BufferedCan
