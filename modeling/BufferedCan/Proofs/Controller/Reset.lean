import BufferedCan.Proofs.Controller.Service
import BufferedCan.Proofs.Frame.Encoding
import BufferedCan.Proofs.Hardware.Device

/-! The message buffers after a setup are the same whatever was in the controller before it. Until its last
write the controller still works with its old layout, so the memory is cleared and armed under a layout
other than the one it is meant for; yet no write is taken for a request to send. -/

namespace BufferedCan

theorem Buffer.armedControl_eq (fd : Bool) :
    armedControl fd = if fd then 0xC4000000 else 0x04000000 := by
  cases fd <;> rfl

namespace Settings

def receiveWord (settings : Settings) : Nat :=
  settings.buffers.receive * settings.mode.dataSize.bufferWords

end Settings

namespace Station

/-- The buffer memory is clear but for a receive buffer that waits for the identifier of the settings.
Its control word has the code for an empty buffer in bits 27 to 24 and, for flexible data rate, the
two highest bits set. -/
structure Reset (station : Station) (settings : Settings) : Prop where
  layout : station.layout = settings.mode.dataSize
  placed : settings.buffers.receive < settings.mode.dataSize.bufferCount
  control : station.memory.ram settings.receiveWord =
    if settings.mode.isFd then 0xC4000000 else 0x04000000
  ident : station.memory.ram (settings.receiveWord + 1) =
    UInt32.ofNat (settings.buffers.receiveId.toNat <<< 18)
  clear : ∀ word < ramWords, word ≠ settings.receiveWord → word ≠ settings.receiveWord + 1 →
    station.memory.ram word = 0
  rxMask : ∀ index < rxMaskCount, station.memory.rxMask index = 0xFFFFFFFF
  rxMgMask : station.memory.get .rxMgMask = 0x1FFFFFFF
  fd : Mcr.fden.isSet (station.memory.get .mcr) = settings.mode.isFd
  last : Mcr.maxmb.get (station.memory.get .mcr) = settings.mode.dataSize.bufferCount - 1

theorem reset_of_applied {settings : Settings} {clock : Clock} {plan : Plan}
    {before after : Station} (planned : settings.Planned clock plan)
    (applied : plan.Applied settings (plan.finalMcr settings before) before after) :
    after.Reset settings := by
  have buffers := planned.buffers
  have control : plan.receiveBuffer.controlWord = settings.receiveWord := by
    rw [Buffer.controlWord, buffers.receiveIndex, buffers.receiveSize, Settings.receiveWord]
  have ident : plan.receiveBuffer.identWord = settings.receiveWord + 1 := by
    rw [Buffer.identWord, control]
  have room := plan.receiveBuffer.controlWord_add_bufferWords_le
  have words : 2 ≤ plan.receiveBuffer.size.bufferWords := Nat.le_add_right _ _
  have inside := plan.receiveBuffer.index_lt
  rw [control] at room
  rw [buffers.receiveIndex, buffers.receiveSize] at inside
  refine ⟨layout_of_applied planned applied, inside, ?_, ?_, ?_, applied.rxMask,
    applied.get .rxMgMask (by decide), fd_of_applied applied, ?_⟩
  · rw [applied.ram _ (by omega), Plan.armed, if_pos control.symm, Buffer.armedControl_eq]
  · rw [applied.ram _ (by omega), Plan.armed, if_neg (by omega), if_pos ident.symm,
      Identifier.toWord_standard]
  · intro word bound notControl notIdent
    rw [applied.ram word bound, Plan.armed, if_neg (by omega), if_neg (by omega)]
  · rw [applied.mcr, plan.maxmb_finalMcr, buffers.transmitSize]

end Station

namespace Frozen

variable (frozen : Frozen) {wire : Wire} {node : Nat} {station : Station}

theorem start_cases (present : wire.stations[node]? = some station) :
    (frozen.start.run (Wire.access node) wire).2 = wire ∧
        (∀ running, (frozen.start.run (Wire.access node) wire).1 ≠ .ok (.ok running)) ∨
      ∃ plan after, frozen.settings.plan frozen.clock = .ok (.ok plan) ∧
        frozen.start.run (Wire.access node) wire =
          (.ok (frozen.verdict plan (plan.finalMcr frozen.settings station)),
            wire.replace node (after, wire.pending)) ∧
        plan.Applied frozen.settings (plan.finalMcr frozen.settings station) station after := by
  cases found : frozen.settings.plan frozen.clock with
  | error fault =>
      have stopped : frozen.start = .done (.error fault) := by simp only [start, found]
      left
      rw [stopped]
      exact ⟨rfl, fun _ same => by cases same⟩
  | ok outcome =>
      cases outcome with
      | error error =>
          have stopped : frozen.start = .done (.ok (.error error)) := by simp only [start, found]
          left
          rw [stopped]
          exact ⟨rfl, fun _ same => by cases same⟩
      | ok plan =>
          obtain ⟨after, ran, applied⟩ := run_start node station wire.pending found
          refine .inr ⟨plan, after, rfl, ?_, applied⟩
          rw [Wire.run_access frozen.start present, ran]

theorem pending_start (present : wire.stations[node]? = some station) :
    (frozen.start.run (Wire.access node) wire).2.pending = wire.pending := by
  rcases frozen.start_cases present with ⟨same, -⟩ | ⟨plan, after, -, ran, -⟩
  · rw [same]
  · rw [ran]
    rfl

/-- A controller that was set up has its buffers reset, whatever it was before. Nobody has been asked to
send anything for it, and no other controller has noticed. -/
theorem start_resets (present : wire.stations[node]? = some station) (running : Running)
    (started : (frozen.start.run (Wire.access node) wire).1 = .ok (.ok running)) :
    (frozen.start.run (Wire.access node) wire).2.pending = wire.pending ∧
      (∀ other, node ≠ other → (frozen.start.run (Wire.access node) wire).2.stations[other]? =
        wire.stations[other]?) ∧
      ∃ after, (frozen.start.run (Wire.access node) wire).2.stations[node]? = some after ∧
        after.Reset frozen.settings := by
  refine ⟨frozen.pending_start present, ?_⟩
  have bound : node < wire.stations.length := (List.getElem?_eq_some_iff.1 present).1
  rcases frozen.start_cases present with ⟨-, refused⟩ | ⟨plan, after, found, ran, applied⟩
  · exact absurd started (refused running)
  · rw [ran]
    refine ⟨?_, after, wire.station_replace _ bound, ?_⟩
    · intro other apart
      exact wire.station_replace_of_ne _ apart
    · exact Station.reset_of_applied (Settings.planned_of_ok found) applied

end Frozen

def Station.littered : Station where
  memory := ((⟨Vector.replicate blockWords 0x0C000000⟩ : Memory).put .mcr 0x59000806).put
    .fdCtrl 0x80030100
  stalled := false
  timerReads := 0

def Wire.littered : Wire := ⟨[.reset, .littered], [⟨0, 0, 0x0C080000, 0, [1, 2]⟩]⟩

/-- The identifier, where it is kept in a word, has the bits of the code for a request to send. -/
def Frozen.requestLike : Frozen where
  clock := .oscillator
  settings := { Settings.ofBitRate 500000 with buffers := { receive := 9, receiveId := 0x700 } }

theorem Frozen.start_resets_littered :
    (requestLike.start.run (Wire.access 1) .littered).2.pending =
        [⟨0, 0, 0x0C080000, 0, [1, 2]⟩] ∧
      ∃ after, (requestLike.start.run (Wire.access 1) .littered).2.stations[1]? = some after ∧
        after.Reset requestLike.settings := by
  have present : Wire.littered.stations[1]? = some .littered := rfl
  have planned : requestLike.settings.plan requestLike.clock =
      .ok (.ok ⟨⟨.bytes8, 0, by decide⟩, ⟨.bytes8, 9, by decide⟩, .classic 1⟩) := rfl
  have awake : Mcr.mdis.isSet (Station.littered.memory.get .mcr) = false := by
    rw [Station.littered, Memory.get_put_of_ne _ _ (by decide), Memory.get_put_self]
    decide
  have started := Wire.run_access requestLike.start present
  obtain ⟨after, ran, -⟩ := run_start 1 .littered Wire.littered.pending planned
  rw [verdict_of_responsive _ rfl awake, if_neg (by decide)] at ran
  rw [ran] at started
  obtain ⟨waiting, -, reset⟩ :=
    start_resets requestLike present _ (congrArg Prod.fst started)
  exact ⟨waiting, reset⟩

end BufferedCan
