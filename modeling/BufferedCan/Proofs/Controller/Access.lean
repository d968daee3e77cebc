import BufferedCan.Controller.Handshake
import BufferedCan.Proofs.Hardware.Mailbox

/-! What the accesses of a program do to the controller that it holds. -/

namespace BufferedCan

namespace Mcr

structure Requested (field : Field) : Prop where
  lowPower : field.Disjoint lpmack := by decide
  frozen : field.Disjoint frzack := by decide
  notReady : field.Disjoint notrdy := by decide

theorem get_withStatus {field : Field} (apart : Requested field) (lowPower frozen notReady : Bool)
    (word : UInt32) : field.get (withStatus lowPower frozen notReady word) = field.get word := by
  rw [withStatus, Field.get_put_of_disjoint apart.notReady, Field.get_put_of_disjoint apart.frozen,
    Field.get_put_of_disjoint apart.lowPower]

end Mcr

namespace Station

def setRegister (station : Station) (register : Register) (value : UInt32) : Station :=
  { station with memory := station.memory.put register value }

theorem get_setRegister (station : Station) (register other : Register) (value : UInt32) :
    (station.setRegister register value).memory.get other =
      if register = other then value else station.memory.get other :=
  station.memory.get_put register other value

theorem ram_setRegister (station : Station) (register : Register) {word : Nat} (value : UInt32)
    (bound : word < 736) :
    (station.setRegister register value).memory.ram word = station.memory.ram word :=
  station.memory.ram_put register value bound

def answer (station : Station) (word : UInt32) : UInt32 :=
  if station.stalled then Mcr.unacknowledged (station.memory.get .mcr) word
  else Mcr.acknowledged word

theorem get_answer (station : Station) {field : Field} (apart : Mcr.Requested field)
    (word : UInt32) : field.get (station.answer word) = field.get word := by
  unfold answer
  split
  · exact Mcr.get_withStatus apart _ _ _ word
  · unfold Mcr.acknowledged
    split
    · exact Mcr.get_withStatus apart _ _ _ word
    · split <;> exact Mcr.get_withStatus apart _ _ _ word

theorem isSet_answer (station : Station) {field : Field} (apart : Mcr.Requested field)
    (word : UInt32) : field.isSet (station.answer word) = field.isSet word := by
  rw [Field.isSet, get_answer station apart, Field.isSet]

theorem asks_register (station : Station) (node : Nat) (register : Register) :
    station.asks node register.offset = none := by
  cases register <;> rfl

theorem asks_rxMask (station : Station) (node : Nat) (index : Nat) :
    station.asks node (rxMaskOffset index) = none := by
  have beyond : ¬(ramOffset 0 ≤ rxMaskOffset index ∧ rxMaskOffset index < ramOffset ramWords) := by
    simp only [ramOffset, ramWords, rxMaskOffset]
    omega
  simp [asks, Wire.ramWord?, beyond]

theorem asks_ram (station : Station) (node : Nat) {word : Nat} (bound : word < ramWords) :
    station.asks node (ramOffset word) = station.request? node word := by
  have within : ramOffset 0 ≤ ramOffset word ∧ ramOffset word < ramOffset ramWords := by
    simp only [ramOffset]
    omega
  have number : (ramOffset word - ramOffset 0) / 4 = word := by
    simp only [ramOffset]
    omega
  simp only [asks, Wire.ramWord?, within, and_self, if_true, number]
  rfl

theorem request?_of_place (station : Station) (node : Nat) {word : Nat}
    (inner : word % station.layout.bufferWords ≠ 0) : station.request? node word = none := by
  simp [request?, inner]

theorem request?_of_odd (station : Station) (node : Nat) {word : Nat} (odd : word % 2 = 1) :
    station.request? node word = none := by
  apply request?_of_place
  rcases station.layout.bufferWords_cases with words | words | words | words <;> rw [words] <;>
    omega

theorem request?_of_code (station : Station) (node : Nat) {word : Nat}
    (quiet : BufferCode.ofBits (MbCs.code.get (station.memory.ram word)) ≠ .txData) :
    station.request? node word = none := by
  simp only [request?]
  split
  next asked =>
    obtain ⟨start, _, code⟩ := asked
    have place : word / station.layout.bufferWords * station.layout.bufferWords = word :=
      Nat.div_mul_cancel (Nat.dvd_of_mod_eq_zero start)
    rw [control_eq, place] at code
    exact absurd code quiet
  next => rfl

end Station

/-! Work that may fail: plain accesses never do, and after a failure nothing more is done. -/

namespace Attempt

variable {ε α β σ : Type} (handler : Handler registers σ) (state : σ)

theorem run_lift (program : Program registers α) (next : α → Attempt ε β) :
    ((liftM program : Attempt ε α) >>= next).run.run handler state =
      (next (program.run handler state).1).run.run handler (program.run handler state).2 := by
  have lifted : (liftM program : Attempt ε α).run = program >>= fun value => .done (.ok value) := rfl
  simp only [ExceptT.run_bind, lifted, Program.run_bind, Program.run_done]

theorem run_mk (program : Program registers (Except ε α)) (next : α → Attempt ε β) :
    (ExceptT.mk program >>= next).run.run handler state =
      match (program.run handler state).1 with
      | .ok value => (next value).run.run handler (program.run handler state).2
      | .error error => (.error error, (program.run handler state).2) := by
  simp only [ExceptT.run_bind, ExceptT.run_mk, Program.run_bind]
  cases (program.run handler state).1 <;> rfl

end Attempt

section
variable (node : Nat) (station : Station) (waiting : List Transfer)

theorem run_read {register : Register} (notTimer : register ≠ .timer) :
    register.read.run (Station.device node) (station, waiting) =
      (station.memory.get register, station, waiting) := by
  have apart : register.offset ≠ Register.timer.offset :=
    fun same => notTimer (Register.offset_injective same)
  simp only [Register.read, readWord, Program.run_ask, Station.device, Station.read, apart,
    if_false, Program.run_done]
  rfl

theorem run_readRam {word : Nat} :
    (readRam word).run (Station.device node) (station, waiting) =
      (station.memory.ram word, station, waiting) := by
  have apart : ramOffset word ≠ Register.timer.offset := by
    simp only [ramOffset, Register.offset]
    omega
  simp only [readRam, readWord, Program.run_ask, Station.device, Station.read, apart,
    if_false, Program.run_done]
  rfl

theorem run_readTimer :
    Register.timer.read.run (Station.device node) (station, waiting) =
      (station.memory.get .timer, { station with timerReads := station.timerReads + 1 },
        waiting) := rfl

theorem run_writeMcr (value : UInt32) :
    (Register.mcr.write value).run (Station.device node) (station, waiting) =
      ((), station.setRegister .mcr (station.answer value), waiting) := by
  simp only [Register.write, writeWord, Program.run_ask, Station.device, Station.asks_register,
    Option.toList_none, List.append_nil, Program.run_done]
  rfl

theorem run_writeFlags (value : UInt32) :
    (Register.iflag1.write value).run (Station.device node) (station, waiting) =
      ((), station.setRegister .iflag1 (station.memory.get .iflag1 &&& ~~~value), waiting) := by
  simp only [Register.write, writeWord, Program.run_ask, Station.device, Station.asks_register,
    Option.toList_none, List.append_nil, Program.run_done]
  rfl

theorem write_plain {offset : Nat} (value : UInt32) (notMcr : offset ≠ Register.mcr.offset)
    (notFlags : offset ≠ Register.iflag1.offset) :
    station.write offset value =
      { station with memory := station.memory.write offset value } := by
  simp only [Station.write, notMcr, notFlags, if_false]

theorem run_write {register : Register} (value : UInt32) (notMcr : register ≠ .mcr)
    (notFlags : register ≠ .iflag1) :
    (register.write value).run (Station.device node) (station, waiting) =
      ((), station.setRegister register value, waiting) := by
  simp only [Register.write, writeWord, Program.run_ask, Station.device, Station.asks_register,
    Option.toList_none, List.append_nil, Program.run_done,
    write_plain station value (fun same => notMcr (Register.offset_injective same))
      (fun same => notFlags (Register.offset_injective same))]
  rfl

theorem run_writeRxMask (index : Nat) (value : UInt32) :
    (writeRxMask index value).run (Station.device node) (station, waiting) =
      ((), { station with memory := station.memory.write (rxMaskOffset index) value },
        waiting) := by
  have notMcr : rxMaskOffset index ≠ Register.mcr.offset := by
    simp only [rxMaskOffset, Register.offset]
    omega
  have notFlags : rxMaskOffset index ≠ Register.iflag1.offset := by
    simp only [rxMaskOffset, Register.offset]
    omega
  simp only [writeRxMask, writeWord, Program.run_ask, Station.device, Station.asks_rxMask,
    Option.toList_none, List.append_nil, Program.run_done, write_plain station value notMcr notFlags]

theorem run_writeRam {word : Nat} (value : UInt32) (bound : word < ramWords) :
    (writeRam word value).run (Station.device node) (station, waiting) =
      ((), station.setRam word value,
        waiting ++ ((station.setRam word value).request? node word).toList) := by
  have notMcr : ramOffset word ≠ Register.mcr.offset := by
    simp only [ramOffset, Register.offset]
    omega
  have notFlags : ramOffset word ≠ Register.iflag1.offset := by
    simp only [ramOffset, Register.offset]
    omega
  simp only [writeRam, writeWord, Program.run_ask, Station.device, Station.asks_ram _ _ bound,
    Program.run_done, write_plain station value notMcr notFlags]
  rfl

theorem run_modify {register : Register} (change : UInt32 → UInt32) (notMcr : register ≠ .mcr)
    (notFlags : register ≠ .iflag1) (notTimer : register ≠ .timer) :
    (register.modify change).run (Station.device node) (station, waiting) =
      ((), station.setRegister register (change (station.memory.get register)), waiting) := by
  rw [Register.modify, Program.run_bind, run_read node station waiting notTimer]
  exact run_write node station waiting _ notMcr notFlags

theorem run_modifyMcr (change : UInt32 → UInt32) :
    (Register.mcr.modify change).run (Station.device node) (station, waiting) =
      ((), station.setRegister .mcr (station.answer (change (station.memory.get .mcr))),
        waiting) := by
  rw [Register.modify, Program.run_bind, run_read node station waiting (by decide)]
  exact run_writeMcr node station waiting _

theorem run_await (handshake : Handshake) (limit : Nat) :
    (handshake.await limit).run (Station.device node) (station, waiting) =
      (if 0 < limit ∧ handshake.reached (station.memory.get .mcr) = true then .ok ()
        else .error (.timeout handshake), station, waiting) := by
  induction limit with
  | zero => simp [Handshake.await]
  | succ limit ih =>
      rw [Handshake.await, Program.run_bind, run_read node station waiting (by decide)]
      by_cases shown : handshake.reached (station.memory.get .mcr) = true
      · simp [shown]
      · simp [shown, ih]

end

end BufferedCan
