import BufferedCan.Proofs.Hardware.Device

/-! The message buffers of a controller: where their words lie, what storing or completing a transfer
changes, and that everything else stays. -/

namespace BufferedCan

namespace DataSize

theorem bufferWords_cases (size : DataSize) :
    size.bufferWords = 4 ∨ size.bufferWords = 6 ∨ size.bufferWords = 10 ∨
      size.bufferWords = 18 := by
  cases size <;> simp [bufferWords, payloadWords, bytes]

theorem bufferWords_eq (size : DataSize) : size.bufferWords = 2 + size.payloadWords := rfl

theorem four_mul_payloadWords (size : DataSize) : 4 * size.payloadWords = size.bytes := by
  cases size <;> rfl

theorem place_le (size : DataSize) {buffer : Nat} (bound : buffer < size.bufferCount) :
    buffer * size.bufferWords + size.bufferWords ≤ ramWords :=
  Buffer.controlWord_add_bufferWords_le ⟨size, buffer, bound⟩

theorem apart_of_ne (size : DataSize) {first second left : Nat} (apart : first ≠ second)
    (leftBound : left < size.bufferWords) :
    first * size.bufferWords + left < second * size.bufferWords ∨
      second * size.bufferWords + size.bufferWords ≤ first * size.bufferWords + left := by
  rcases Nat.lt_or_gt_of_ne apart with below | above
  · left
    have step := Nat.mul_le_mul_right size.bufferWords below
    rw [Nat.succ_mul] at step
    omega
  · right
    have step := Nat.mul_le_mul_right size.bufferWords above
    rw [Nat.succ_mul] at step
    omega

end DataSize

theorem Buffer.apart {first second : Buffer} (size : first.size = second.size)
    (index : first.index ≠ second.index) {word : Nat} (lower : first.controlWord ≤ word)
    (upper : word < first.controlWord + first.size.bufferWords) :
    word < second.controlWord ∨ second.controlWord + second.size.bufferWords ≤ word := by
  obtain ⟨left, rfl⟩ := Nat.exists_eq_add_of_le lower
  rw [controlWord, controlWord, size]
  apply second.size.apart_of_ne index
  rw [← size]
  omega

namespace Station

structure KeepsSetup (before after : Station) : Prop where
  stalled : after.stalled = before.stalled
  get : ∀ register, register ≠ .iflag1 → register ≠ .timer →
    after.memory.get register = before.memory.get register

theorem KeepsSetup.refl (station : Station) : station.KeepsSetup station := ⟨rfl, fun _ _ _ => rfl⟩

theorem KeepsSetup.trans {first second third : Station} (left : first.KeepsSetup second)
    (right : second.KeepsSetup third) : first.KeepsSetup third :=
  ⟨right.stalled.trans left.stalled, fun register notFlags notTimer =>
    (right.get register notFlags notTimer).trans (left.get register notFlags notTimer)⟩

section
variable {before after : Station} (kept : before.KeepsSetup after)
include kept

theorem KeepsSetup.mcr : after.memory.get .mcr = before.memory.get .mcr :=
  kept.get .mcr (by decide) (by decide)

theorem KeepsSetup.running : after.running = before.running := by
  simp only [Station.running, kept.mcr]

theorem KeepsSetup.layout : after.layout = before.layout := by
  simp only [Station.layout, kept.mcr, kept.get .fdCtrl (by decide) (by decide)]

theorem KeepsSetup.activeBuffers : after.activeBuffers = before.activeBuffers := by
  simp only [Station.activeBuffers, kept.mcr, kept.layout]

theorem KeepsSetup.follows (transfer : Transfer) :
    after.follows transfer = before.follows transfer := by
  simp only [Station.follows, kept.mcr, kept.running]

end

theorem control_eq (station : Station) (buffer : Nat) :
    station.control buffer = station.memory.ram (buffer * station.layout.bufferWords) := rfl

theorem ident_eq (station : Station) (buffer : Nat) :
    station.ident buffer = station.memory.ram (buffer * station.layout.bufferWords + 1) := rfl

def payloadWord (station : Station) (buffer number : Nat) : UInt32 :=
  station.memory.ram (buffer * station.layout.bufferWords + 2 + number)

theorem payloadWords_eq (station : Station) (buffer : Nat) :
    station.payloadWords buffer =
      (List.range station.layout.payloadWords).map (station.payloadWord buffer) := by
  apply List.map_congr_left
  intro number _
  simp only [payloadWord, Memory.ram, bufferOffset, ramOffset]
  congr 1
  omega

def code (station : Station) (buffer : Nat) : BufferCode :=
  .ofBits (MbCs.code.get (station.control buffer))

/-! Registers and buffer memory are written apart from each other. -/

def setRam (station : Station) (word : Nat) (value : UInt32) : Station :=
  { station with memory := station.memory.writeRam word value }

theorem keepsSetup_setRam (station : Station) {word : Nat} (value : UInt32) (bound : word < 736) :
    station.KeepsSetup (station.setRam word value) :=
  ⟨rfl, fun register _ _ => Memory.get_writeRam _ register value bound⟩

theorem tick_cases (station : Station) :
    station.tick.2 = station ∨ ∃ time,
      station.tick.2 = { station with memory := station.memory.put .timer time } := by
  simp only [tick]
  split
  · exact Or.inl rfl
  · exact Or.inr ⟨_, rfl⟩

theorem get_tick (station : Station) {register : Register} (notTimer : register ≠ .timer) :
    station.tick.2.memory.get register = station.memory.get register := by
  rcases station.tick_cases with same | ⟨time, ticked⟩
  · rw [same]
  · rw [ticked, Memory.get_put_of_ne _ _ notTimer.symm]

theorem ram_tick (station : Station) {word : Nat} (bound : word < 736) :
    station.tick.2.memory.ram word = station.memory.ram word := by
  rcases station.tick_cases with same | ⟨time, ticked⟩
  · rw [same]
  · rw [ticked, Memory.ram_put _ _ _ bound]

theorem keepsSetup_tick (station : Station) : station.KeepsSetup station.tick.2 := by
  refine ⟨?_, fun register _ notTimer => station.get_tick notTimer⟩
  rcases station.tick_cases with same | ⟨time, ticked⟩
  · rw [same]
  · rw [ticked]

def filling (station : Station) (transfer : Transfer) (code : BufferCode) : List UInt32 :=
  station.stamp code transfer.control :: transfer.ident ::
    (List.range station.layout.payloadWords).map fun number => transfer.words.getD number 0

def fillCode (station : Station) (buffer : Nat) : BufferCode :=
  if flagSet buffer (station.memory.get .iflag1) then .rxOverrun else .rxFull

theorem fill_eq (station : Station) (transfer : Transfer) (buffer : Nat) :
    station.fill transfer buffer =
      { station with
        memory := raise (station.memory.writeAll
          (ramOffset (buffer * station.layout.bufferWords))
          (station.filling transfer (station.fillCode buffer))) buffer } := rfl

theorem length_filling (station : Station) (transfer : Transfer) (code : BufferCode) :
    (station.filling transfer code).length = station.layout.bufferWords := by
  simp [filling, DataSize.bufferWords_eq]
  omega

section
variable (station : Station) (transfer : Transfer) {buffer : Nat}
  (bound : buffer < station.layout.bufferCount)
include bound

theorem get_fill {register : Register} (notFlags : register ≠ .iflag1) :
    (station.fill transfer buffer).memory.get register = station.memory.get register := by
  have room := station.layout.place_le bound
  simp only [ramWords] at room
  rw [fill_eq, raise, Memory.get_put_of_ne _ _ notFlags.symm]
  exact Memory.get_writeAll _ _ _ _ (by rw [length_filling]; omega)

theorem iflag1_fill :
    (station.fill transfer buffer).memory.get .iflag1 =
      station.memory.get .iflag1 ||| flagWord buffer := by
  have room := station.layout.place_le bound
  simp only [ramWords] at room
  rw [fill_eq, raise, Memory.get_put_self, Memory.get_writeAll _ _ _ _ (by rw [length_filling]; omega)]

theorem keepsSetup_fill : station.KeepsSetup (station.fill transfer buffer) :=
  ⟨rfl, fun _ notFlags _ => station.get_fill transfer bound notFlags⟩

theorem ram_fill_of_inside {place : Nat}
    (inside : place < (station.filling transfer (station.fillCode buffer)).length) :
    (station.fill transfer buffer).memory.ram (buffer * station.layout.bufferWords + place) =
      (station.filling transfer (station.fillCode buffer))[place] := by
  have room := station.layout.place_le bound
  simp only [ramWords] at room
  rw [length_filling] at inside
  rw [fill_eq, raise, Memory.ram_put _ _ _ (by omega)]
  exact Memory.ram_writeAll_inside _ _ _ _ _ (by rw [length_filling]; omega)

omit bound in
theorem ram_fill_of_outside {word : Nat} (wordBound : word < 736)
    (outside : word < buffer * station.layout.bufferWords ∨
      buffer * station.layout.bufferWords + station.layout.bufferWords ≤ word) :
    (station.fill transfer buffer).memory.ram word = station.memory.ram word := by
  rw [fill_eq, raise, Memory.ram_put _ _ _ wordBound]
  exact Memory.ram_writeAll_outside _ _ _ _ (by rw [length_filling]; exact outside)

theorem control_fill :
    (station.fill transfer buffer).control buffer =
      station.stamp (station.fillCode buffer) transfer.control := by
  have kept := station.keepsSetup_fill transfer bound
  have inside : 0 < (station.filling transfer (station.fillCode buffer)).length := by
    rw [length_filling, DataSize.bufferWords_eq]
    omega
  rw [control_eq, kept.layout]
  exact station.ram_fill_of_inside transfer bound inside

theorem ident_fill : (station.fill transfer buffer).ident buffer = transfer.ident := by
  have kept := station.keepsSetup_fill transfer bound
  have inside : 1 < (station.filling transfer (station.fillCode buffer)).length := by
    rw [length_filling, DataSize.bufferWords_eq]
    omega
  rw [ident_eq, kept.layout]
  exact station.ram_fill_of_inside transfer bound inside

theorem payloadWord_fill {number : Nat} (within : number < station.layout.payloadWords) :
    (station.fill transfer buffer).payloadWord buffer number = transfer.words.getD number 0 := by
  have kept := station.keepsSetup_fill transfer bound
  have inside : 2 + number < (station.filling transfer (station.fillCode buffer)).length := by
    rw [length_filling, DataSize.bufferWords_eq]
    omega
  rw [payloadWord, kept.layout, Nat.add_assoc, station.ram_fill_of_inside transfer bound inside]
  simp [filling, Nat.add_comm 2 number]

end

theorem complete_eq (station : Station) (buffer : Nat) :
    station.complete buffer =
      { station with
        memory := raise (station.memory.writeRam (buffer * station.layout.bufferWords)
          (station.stamp
            (if MbCs.rtr.isSet (station.control buffer) then .rxEmpty else .txInactive)
            (station.control buffer))) buffer } := rfl

section
variable (station : Station) {buffer : Nat} (bound : buffer < 32)
include bound

theorem complete_place : buffer * station.layout.bufferWords < 736 := by
  rcases station.layout.bufferWords_cases with words | words | words | words <;>
    rw [words] <;> omega

theorem get_complete {register : Register} (notFlags : register ≠ .iflag1) :
    (station.complete buffer).memory.get register = station.memory.get register := by
  rw [complete_eq, raise, Memory.get_put_of_ne _ _ notFlags.symm]
  exact Memory.get_writeRam _ _ _ (station.complete_place bound)

theorem iflag1_complete :
    (station.complete buffer).memory.get .iflag1 =
      station.memory.get .iflag1 ||| flagWord buffer := by
  rw [complete_eq, raise, Memory.get_put_self, Memory.get_writeRam _ _ _ (station.complete_place bound)]

theorem keepsSetup_complete : station.KeepsSetup (station.complete buffer) :=
  ⟨rfl, fun _ notFlags _ => station.get_complete bound notFlags⟩

theorem ram_complete {word : Nat} (wordBound : word < 736) :
    (station.complete buffer).memory.ram word =
      if buffer * station.layout.bufferWords = word then
        station.stamp (if MbCs.rtr.isSet (station.control buffer) then .rxEmpty else .txInactive)
          (station.control buffer)
      else station.memory.ram word := by
  have place := station.complete_place bound
  rw [complete_eq, raise, Memory.ram_put _ _ _ wordBound, Memory.ram_writeRam _ _ _ (by omega)]

end

end Station

end BufferedCan
