import BufferedCan.Proofs.Controller.Modes
import BufferedCan.Proofs.Controller.Plan
import BufferedCan.Proofs.Controller.Setup

/-! A controller in service: its registers say what the settings of its holder say. Nothing that happens
on the bus changes that. -/

namespace BufferedCan

namespace Plan

variable (plan : Plan) (settings : Settings) (station : Station)

theorem get_finalMcr {field : Field} (requested : Mcr.Requested field)
    (notFrz : field.Disjoint Mcr.frz) (notHalt : field.Disjoint Mcr.halt)
    (notMaxmb : field.Disjoint Mcr.maxmb) (notFden : field.Disjoint Mcr.fden) :
    field.get (plan.finalMcr settings station) = field.get (station.memory.get .mcr) := by
  rw [finalMcr, Station.get_answer _ requested, Field.get_put_of_disjoint notHalt,
    Field.get_put_of_disjoint notFrz, frozenMcr, Station.get_answer _ requested,
    Field.get_set_of_disjoint notMaxmb, Field.get_put_of_disjoint notFden]

theorem fden_finalMcr : Mcr.fden.isSet (plan.finalMcr settings station) = settings.mode.isFd := by
  rw [finalMcr, Station.isSet_answer _ {}, Field.isSet_put_of_disjoint (by decide),
    Field.isSet_put_of_disjoint (by decide), frozenMcr, Station.isSet_answer _ {},
    Field.isSet_set_of_disjoint (by decide), Field.isSet_put_bit]

theorem maxmb_finalMcr : Mcr.maxmb.get (plan.finalMcr settings station) =
    plan.transmitBuffer.size.bufferCount - 1 := by
  have small := plan.transmitBuffer.size.bufferCount_le
  rw [finalMcr, Station.get_answer _ {}, Field.get_put_of_disjoint (by decide),
    Field.get_put_of_disjoint (by decide), frozenMcr, Station.get_answer _ {},
    Field.get_set_of_lt]
  show plan.transmitBuffer.size.bufferCount - 1 < 128
  omega

theorem asksForLowPower_finalMcr :
    Mcr.asksForLowPower (plan.finalMcr settings station) =
      Mcr.asksForLowPower (station.memory.get .mcr) := by
  rw [Mcr.asksForLowPower, Field.isSet, plan.get_finalMcr settings station {} (by decide)
    (by decide) (by decide) (by decide)]
  rfl

theorem asksForFreeze_finalMcr :
    Mcr.asksForFreeze (plan.finalMcr settings station) = false := by
  have frz : Mcr.frz.isSet (plan.finalMcr settings station) = false := by
    rw [finalMcr, Station.isSet_answer _ {}, Field.isSet_put_of_disjoint (by decide),
      Field.isSet_put_bit]
  rw [Mcr.asksForFreeze, frz, Bool.false_and]

end Plan

namespace Frozen

theorem verdict_eq_ok_iff {frozen : Frozen} {plan : Plan} {mcr : UInt32} {running : Running} :
    frozen.verdict plan mcr = .ok running ↔
      0 < frozen.settings.pollLimit ∧ Mcr.frzack.isSet mcr = false ∧
        Mcr.notrdy.isSet mcr = false ∧
        running = { clock := frozen.clock
                    settings := frozen.settings
                    transmitBuffer := plan.transmitBuffer
                    receiveBuffer := plan.receiveBuffer } := by
  have left : Handshake.freezeExit.reached mcr = true ↔ Mcr.frzack.isSet mcr = false := by
    rw [Handshake.reached, Bool.not_eq_true']
  have ready : Handshake.ready.reached mcr = true ↔ Mcr.notrdy.isSet mcr = false := by
    rw [Handshake.reached, Bool.not_eq_true']
  rw [← left, ← ready, verdict]
  constructor
  · intro accepted
    split at accepted
    next thawed =>
      split at accepted
      next shown => exact ⟨thawed.1, thawed.2, shown, (Except.ok.inj accepted).symm⟩
      next => cases accepted
    next => cases accepted
  · rintro ⟨patient, thawed, shown, rfl⟩
    rw [if_pos ⟨patient, thawed⟩, if_pos shown]

theorem verdict_of_responsive {frozen : Frozen} (plan : Plan) {station : Station}
    (responsive : station.stalled = false)
    (awake : Mcr.mdis.isSet (station.memory.get .mcr) = false) :
    frozen.verdict plan (plan.finalMcr frozen.settings station) =
      if frozen.settings.pollLimit = 0 then .error (.timeout .freezeExit)
      else .ok { clock := frozen.clock
                 settings := frozen.settings
                 transmitBuffer := plan.transmitBuffer
                 receiveBuffer := plan.receiveBuffer } := by
  have word : plan.finalMcr frozen.settings station =
      Mcr.acknowledged (Mcr.thawing (plan.frozenMcr frozen.settings station)) := by
    rw [Plan.finalMcr, Station.answer_of_responsive]
    · rfl
    · exact responsive
  have low : Mcr.asksForLowPower (Mcr.thawing (plan.frozenMcr frozen.settings station)) = false := by
    rw [Mcr.asksForLowPower_thawing, Mcr.asksForLowPower, Plan.frozenMcr,
      Station.isSet_answer _ {}, Field.isSet_set_of_disjoint (by decide),
      Field.isSet_put_of_disjoint (by decide), awake]
  by_cases patient : frozen.settings.pollLimit = 0
  · rw [if_pos patient, verdict, if_neg (by omega)]
  · rw [if_neg patient, verdict_eq_ok_iff, word, Mcr.frzack_acknowledged, Mcr.notrdy_acknowledged,
      low, Mcr.asksForFreeze_thawing]
    exact ⟨by omega, rfl, rfl, rfl⟩

end Frozen

structure Running.Sound (running : Running) : Prop where
  buffers : running.settings.Buffers running.transmitBuffer running.receiveBuffer
  patient : 0 < running.settings.pollLimit

theorem Frozen.sound_of_verdict {frozen : Frozen} {plan : Plan} {mcr : UInt32} {running : Running}
    (planned : frozen.settings.Planned frozen.clock plan)
    (accepted : frozen.verdict plan mcr = .ok running) : running.Sound := by
  obtain ⟨patient, -, -, rfl⟩ := verdict_eq_ok_iff.mp accepted
  exact ⟨planned.buffers, patient⟩

namespace Station

structure Serves (settings : Settings) (station : Station) : Prop where
  running : station.running = true
  fd : Mcr.fden.isSet (station.memory.get .mcr) = settings.mode.isFd
  layout : station.layout = settings.mode.dataSize
  active : station.activeBuffers = settings.mode.dataSize.bufferCount
  loopback : Ctrl1.lpb.isSet (station.memory.get .ctrl1) = settings.loopback
  mask : station.memory.get .rxMgMask = 0x1FFFFFFF

theorem Serves.keep {settings : Settings} {before after : Station} (serves : before.Serves settings)
    (kept : before.KeepsSetup after) : after.Serves settings where
  running := kept.running.trans serves.running
  fd := by rw [kept.mcr, serves.fd]
  layout := kept.layout.trans serves.layout
  active := kept.activeBuffers.trans serves.active
  loopback := by rw [kept.get .ctrl1 (by decide) (by decide), serves.loopback]
  mask := (kept.get .rxMgMask (by decide) (by decide)).trans serves.mask

section
variable {settings : Settings} {clock : Clock} {plan : Plan} {before after : Station}

theorem fd_of_applied
    (applied : plan.Applied settings (plan.finalMcr settings before) before after) :
    Mcr.fden.isSet (after.memory.get .mcr) = settings.mode.isFd := by
  rw [applied.mcr, plan.fden_finalMcr]

theorem layout_of_applied (planned : settings.Planned clock plan)
    (applied : plan.Applied settings (plan.finalMcr settings before) before after) :
    after.layout = settings.mode.dataSize := by
  unfold Station.layout
  rw [fd_of_applied applied]
  have fdCtrl := applied.get .fdCtrl (by decide)
  have rates := planned.rates
  cases chosen : plan.rates with
  | classic prescaler =>
      rw [chosen] at rates
      cases rates with
      | classic mode nominal => simp [mode, Mode.isFd, Mode.dataSize]
  | flexible rate nominal data =>
      rw [chosen] at rates fdCtrl
      cases rates with
      | flexible mode nominal data delay =>
          have bits : FdCtrl.mbdsr0.get (after.memory.get .fdCtrl) = rate.dataSize.toBits := by
            rw [fdCtrl]
            simp only [Rates.content, FdCtrl.withRate]
            rw [Field.get_set_of_disjoint (by decide), Field.get_put_of_disjoint (by decide),
              Field.get_set_of_lt (by cases rate.dataSize <;> decide)]
          rw [bits, DataSize.ofBits_toBits]
          simp [mode, Mode.isFd, Mode.dataSize]

theorem serves_of_applied (planned : settings.Planned clock plan)
    (applied : plan.Applied settings (plan.finalMcr settings before) before after)
    (awake : Mcr.mdis.isSet (before.memory.get .mcr) = false) : after.Serves settings := by
  have layout := layout_of_applied planned applied
  have size := planned.buffers.transmitSize
  refine ⟨?_, fd_of_applied applied, layout, ?_, ?_, ?_⟩
  · rw [Station.running, applied.mcr]
    simp only [plan.asksForFreeze_finalMcr, plan.asksForLowPower_finalMcr]
    rw [Mcr.asksForLowPower, awake]
    rfl
  · have positive := settings.mode.dataSize.bufferCount_pos
    rw [Station.activeBuffers, layout, applied.mcr, plan.maxmb_finalMcr, size]
    omega
  · rw [applied.get .ctrl1 (by decide)]
    exact Field.isSet_put_bit 12 (by decide) settings.loopback _
  · exact applied.get .rxMgMask (by decide)

end

end Station

end BufferedCan
