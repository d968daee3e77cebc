import BufferedCan.Controller.Setup
import BufferedCan.Proofs.Controller.Access

/-! What a controller looks like after its setup. The registers hold what the plan says and the buffer
memory is clear but for the armed receive buffer, whatever was there before. None of the writes is
taken for a request to send: cleared words carry no code for it, and the identifier of the receive
buffer lies in an odd word, which is no control word in any layout. -/

namespace BufferedCan

namespace Rates

def content (rates : Rates) (settings : Settings) : Register → UInt32 → UInt32
  | .ctrl1, word => Ctrl1.lpb.put settings.loopback <|
    match rates with
    | classic prescaler => Ctrl1.withTiming settings.nominal prescaler word
    | flexible .. => word
  | .cbt, word =>
    match rates with
    | classic _ => Cbt.btf.put false word
    | flexible _ prescaler _ => Cbt.withTiming settings.nominal prescaler word
  | .fdCbt, word =>
    match rates with
    | classic _ => word
    | flexible rate _ prescaler => FdCbt.withTiming rate.dataTiming prescaler word
  | .fdCtrl, word =>
    match rates with
    | classic _ => word
    | flexible rate _ _ => FdCtrl.withRate rate word
  | .ctrl2, word =>
    match rates with
    | classic _ => Ctrl2.isocanfden.put false word
    | flexible .. => Ctrl2.isocanfden.put true word
  | .rxMgMask, _ => 0x1FFFFFFF
  | _, word => word

end Rates

namespace Plan

def armed (plan : Plan) (settings : Settings) (word : Nat) : UInt32 :=
  if word = plan.receiveBuffer.controlWord then Buffer.armedControl settings.mode.isFd
  else if word = plan.receiveBuffer.identWord then
    (Identifier.standard settings.buffers.receiveId).toWord
  else 0

def frozenMcr (plan : Plan) (settings : Settings) (station : Station) : UInt32 :=
  station.answer (Mcr.maxmb.set (plan.transmitBuffer.size.bufferCount - 1)
    (Mcr.fden.put settings.mode.isFd (station.memory.get .mcr)))

def finalMcr (plan : Plan) (settings : Settings) (station : Station) : UInt32 :=
  (station.setRegister .mcr (plan.frozenMcr settings station)).answer
    (Mcr.halt.put false (Mcr.frz.put false (plan.frozenMcr settings station)))

structure Applied (plan : Plan) (settings : Settings) (mcr : UInt32)
    (before after : Station) : Prop where
  stalled : after.stalled = before.stalled
  mcr : after.memory.get .mcr = mcr
  get : ∀ register, register ≠ .mcr →
    after.memory.get register = plan.rates.content settings register (before.memory.get register)
  ram : ∀ word, word < ramWords → after.memory.ram word = plan.armed settings word
  rxMask : ∀ index, index < rxMaskCount → after.memory.rxMask index = 0xFFFFFFFF

end Plan

section
variable (node : Nat) (station : Station) (waiting : List Transfer)

theorem run_forEach_clear (words : List Nat) (bounded : ∀ word ∈ words, word < ramWords) :
    ∃ memory : Memory,
      (Program.forEach words fun word => writeRam word 0).run (Station.device node)
        (station, waiting) = ((), { station with memory := memory }, waiting) ∧
      (∀ word < ramWords, memory.ram word = if word ∈ words then 0 else station.memory.ram word) ∧
      (∀ register, memory.get register = station.memory.get register) ∧
      ∀ index, memory.rxMask index = station.memory.rxMask index := by
  induction words generalizing station with
  | nil => exact ⟨station.memory, rfl, by simp, fun _ => rfl, fun _ => rfl⟩
  | cons first rest ih =>
      have bound : first < ramWords := bounded first (by simp)
      have cleared : (station.setRam first 0).memory.ram first = 0 := by
        rw [Station.setRam, Memory.ram_writeRam _ _ _ (by simp only [ramWords] at bound; omega),
          if_pos rfl]
      have quiet : (station.setRam first 0).request? node first = none := by
        apply Station.request?_of_code
        rw [cleared]
        decide
      obtain ⟨memory, ran, ram, get, rxMask⟩ := ih (station.setRam first 0)
        fun word member => bounded word (by simp [member])
      refine ⟨memory, ?_, ?_, ?_, ?_⟩
      · rw [Program.forEach, Program.run_bind, run_writeRam node station waiting 0 bound, quiet,
          Option.toList_none, List.append_nil]
        exact ran
      · intro word wordBound
        simp only [ramWords] at bound
        rw [ram word wordBound, Station.setRam, Memory.ram_writeRam _ _ _ (by omega)]
        by_cases own : word = first
        · simp [own]
        · simp [own, Ne.symm own]
      · intro register
        simp only [ramWords] at bound
        rw [get register]
        exact Memory.get_writeRam _ register 0 (by omega)
      · intro index
        simp only [ramWords] at bound
        rw [rxMask index]
        exact Memory.read_write_of_ne _ _ (by simp only [ramOffset, rxMaskOffset]; omega)

theorem run_forEach_open (masks : List Nat) (bounded : ∀ index ∈ masks, index < rxMaskCount) :
    ∃ memory : Memory,
      (Program.forEach masks fun index => writeRxMask index 0xFFFFFFFF).run (Station.device node)
        (station, waiting) = ((), { station with memory := memory }, waiting) ∧
      (∀ word < ramWords, memory.ram word = station.memory.ram word) ∧
      (∀ register, memory.get register = station.memory.get register) ∧
      ∀ index, memory.rxMask index =
        if index ∈ masks then 0xFFFFFFFF else station.memory.rxMask index := by
  induction masks generalizing station with
  | nil => exact ⟨station.memory, rfl, fun _ _ => rfl, fun _ => rfl, by simp⟩
  | cons first rest ih =>
      have bound : first < rxMaskCount := bounded first (by simp)
      simp only [rxMaskCount] at bound
      obtain ⟨memory, ran, ram, get, rxMask⟩ := ih
        { station with memory := station.memory.write (rxMaskOffset first) 0xFFFFFFFF }
        fun index member => bounded index (by simp [member])
      refine ⟨memory, ?_, ?_, ?_, ?_⟩
      · rw [Program.forEach, Program.run_bind, run_writeRxMask node station waiting first]
        exact ran
      · intro word wordBound
        simp only [ramWords] at wordBound
        rw [ram word wordBound]
        exact Memory.read_write_of_ne _ _ (by simp only [ramOffset, rxMaskOffset]; omega)
      · intro register
        rw [get register]
        apply Memory.read_write_of_ne
        simp only [rxMaskOffset]
        cases register <;> simp only [Register.offset] <;> omega
      · intro index
        rw [rxMask index, Memory.rxMask, Memory.read_write _ _ _
          (Memory.contains_rxMaskOffset bound)]
        have injective : rxMaskOffset first / 4 = rxMaskOffset index / 4 ↔ first = index := by
          simp only [rxMaskOffset]
          omega
        by_cases own : index = first
        · simp [own]
        · simp [own, injective, Ne.symm own, Memory.rxMask]

theorem run_rates (rates : Rates) (settings : Settings) :
    ∃ memory : Memory,
      (do
        rates.program settings.nominal
        Register.ctrl1.modify (Ctrl1.lpb.put settings.loopback)).run (Station.device node)
        (station, waiting) = ((), { station with memory := memory }, waiting) ∧
      (∀ register, register ≠ .rxMgMask →
        memory.get register = rates.content settings register (station.memory.get register)) ∧
      (∀ word < ramWords, memory.ram word = station.memory.ram word) := by
  cases rates with
  | classic prescaler =>
      refine ⟨?memory, ?ran, ?get, ?ram⟩
      case ran =>
        simp (disch := decide) only [Rates.program, Program.run_bind, run_modify]
        rfl
      case get =>
        intro register notMask
        cases register <;> simp_all [Station.get_setRegister, Memory.get_put, Rates.content]
      case ram =>
        intro word bound
        simp only [ramWords] at bound
        have small : word < 736 := by omega
        simp only [Memory.ram_put _ _ _ small, Station.ram_setRegister _ _ _ small]
  | flexible rate prescaler dataPrescaler =>
      refine ⟨?written, ?ranFlexible, ?getFlexible, ?ramFlexible⟩
      case ranFlexible =>
        simp (disch := decide) only [Rates.program, Program.run_bind, run_modify]
        rfl
      case getFlexible =>
        intro register notMask
        cases register <;> simp_all [Station.get_setRegister, Memory.get_put, Rates.content]
      case ramFlexible =>
        intro word bound
        simp only [ramWords] at bound
        have small : word < 736 := by omega
        simp only [Memory.ram_put _ _ _ small, Station.ram_setRegister _ _ _ small]

theorem run_arm (buffer : Buffer) (id : BitVec 11) (fd : Bool) :
    (buffer.arm id fd).run (Station.device node) (station, waiting) =
      ((), (station.setRam buffer.identWord (Identifier.standard id).toWord).setRam
        buffer.controlWord (Buffer.armedControl fd), waiting) := by
  have room := buffer.controlWord_add_bufferWords_le
  have words := buffer.size.bufferWords_cases
  have identBound : buffer.identWord < ramWords := by
    simp only [Buffer.identWord]
    omega
  have controlBound : buffer.controlWord < ramWords := by omega
  have odd : buffer.identWord % 2 = 1 := by
    simp only [Buffer.identWord, Buffer.controlWord]
    rcases words with words | words | words | words <;> rw [words] <;> omega
  rw [Buffer.arm, Program.run_bind, run_writeRam _ _ _ _ identBound, Station.request?_of_odd _ _ odd,
    Option.toList_none, List.append_nil]
  dsimp only
  rw [run_writeRam _ _ _ _ controlBound, Station.request?_of_code, Option.toList_none,
    List.append_nil]
  simp only [ramWords] at controlBound
  rw [Station.setRam, Memory.ram_writeRam _ _ _ (by omega), if_pos rfl]
  cases fd <;> decide

theorem run_prepareBuffers (plan : Plan) (settings : Settings) :
    ∃ memory : Memory,
      (plan.prepareBuffers settings).run (Station.device node) (station, waiting) =
        ((), { station with memory := memory }, waiting) ∧
      (∀ register, memory.get register =
        if register = .rxMgMask then 0x1FFFFFFF else station.memory.get register) ∧
      (∀ word < ramWords, memory.ram word = plan.armed settings word) ∧
      ∀ index < rxMaskCount, memory.rxMask index = 0xFFFFFFFF := by
  have room := plan.receiveBuffer.controlWord_add_bufferWords_le
  have words := plan.receiveBuffer.size.bufferWords_cases
  simp only [ramWords] at room
  have controlBound : plan.receiveBuffer.controlWord < 126 := by omega
  have identBound : plan.receiveBuffer.identWord < 127 := by
    simp only [Buffer.identWord]
    omega
  obtain ⟨cleared, clearing, clearRam, clearGet, _⟩ := run_forEach_clear node station waiting
    (List.range ramWords) fun word member => List.mem_range.mp member
  obtain ⟨opened, opening, openRam, openGet, openMask⟩ := run_forEach_open node
    { station with memory := cleared } waiting (List.range rxMaskCount)
    fun index member => List.mem_range.mp member
  refine ⟨((opened.put .rxMgMask 0x1FFFFFFF).writeRam plan.receiveBuffer.identWord
    (Identifier.standard settings.buffers.receiveId).toWord).writeRam
    plan.receiveBuffer.controlWord (Buffer.armedControl settings.mode.isFd), ?_, ?_, ?_, ?_⟩
  · simp only [Plan.prepareBuffers, Program.run_bind, clearing, opening,
      run_write node _ _ _ (by decide : Register.rxMgMask ≠ .mcr)
        (by decide : Register.rxMgMask ≠ .iflag1), run_arm]
    rfl
  · intro register
    rw [Memory.get_writeRam _ _ _ (by omega), Memory.get_writeRam _ _ _ (by omega), Memory.get_put,
      openGet, clearGet]
    simp only [eq_comm]
  · intro word bound
    simp only [Plan.armed]
    rw [Memory.ram_writeRam _ _ _ (by omega), Memory.ram_writeRam _ _ _ (by omega),
      Memory.ram_put _ _ _ (by simp only [ramWords] at bound; omega), openRam word bound,
      clearRam word bound]
    simp [bound, eq_comm]
  · intro index bound
    have beside : ∀ word < 128, ramOffset word / 4 ≠ rxMaskOffset index / 4 := by
      intro word small
      simp only [ramOffset, rxMaskOffset]
      omega
    rw [Memory.rxMask, Memory.writeRam, Memory.read_write_of_ne _ _ (beside _ (by omega)),
      Memory.writeRam, Memory.read_write_of_ne _ _ (beside _ (by omega)), Memory.put,
      Memory.read_write_of_ne _ _ (by simp only [Register.offset, rxMaskOffset]; omega)]
    exact (openMask index).trans (if_pos (List.mem_range.mpr bound))

theorem run_configure (plan : Plan) (settings : Settings) :
    ∃ after, (plan.configure settings).run (Station.device node) (station, waiting) =
        ((), after, waiting) ∧
      plan.Applied settings (plan.frozenMcr settings station) station after := by
  obtain ⟨rated, rating, ratedGet, _⟩ := run_rates node station waiting plan.rates settings
  obtain ⟨memory, preparing, get, ram, rxMask⟩ := run_prepareBuffers node
    { station with memory := rated } waiting plan settings
  have mcr : memory.get .mcr = station.memory.get .mcr := by
    rw [get, if_neg (by decide), ratedGet _ (by decide)]
    rfl
  refine ⟨Station.setRegister { station with memory := memory } .mcr
    (plan.frozenMcr settings station), ?_, ⟨rfl, Memory.get_put_self _ _ _, ?_, ?_, ?_⟩⟩
  · have split : plan.configure settings = (do
        (do
          plan.rates.program settings.nominal
          Register.ctrl1.modify (Ctrl1.lpb.put settings.loopback))
        plan.prepareBuffers settings
        Register.mcr.modify fun word => Mcr.maxmb.set (plan.transmitBuffer.size.bufferCount - 1)
          (Mcr.fden.put settings.mode.isFd word)) := by
      simp only [Plan.configure, bind_assoc]
    rw [split, Program.run_bind, rating, Program.run_bind, preparing, run_modifyMcr]
    simp only [Plan.frozenMcr, Station.answer, mcr]
  · intro register notMcr
    rw [Station.get_setRegister, if_neg notMcr.symm, get]
    split
    next mask => rw [mask]; rfl
    next apart => exact ratedGet register apart
  · intro word bound
    rw [Station.ram_setRegister _ _ _ (by simp only [ramWords] at bound; omega)]
    exact ram word bound
  · intro index bound
    rw [Memory.rxMask, Station.setRegister, Memory.put, Memory.read_write_of_ne _ _
      (by simp only [Register.offset, rxMaskOffset]; omega)]
    exact rxMask index bound

end

namespace Frozen

def verdict (frozen : Frozen) (plan : Plan) (mcr : UInt32) : Except SetupError Running :=
  if 0 < frozen.settings.pollLimit ∧ Handshake.freezeExit.reached mcr = true then
    if Handshake.ready.reached mcr = true then
      .ok { clock := frozen.clock
            settings := frozen.settings
            transmitBuffer := plan.transmitBuffer
            receiveBuffer := plan.receiveBuffer }
    else .error (.timeout .ready)
  else .error (.timeout .freezeExit)

theorem run_start {frozen : Frozen} {plan : Plan} (node : Nat) (station : Station)
    (waiting : List Transfer) (planned : frozen.settings.plan frozen.clock = .ok (.ok plan)) :
    ∃ after, frozen.start.run (Station.device node) (station, waiting) =
        (.ok (frozen.verdict plan (plan.finalMcr frozen.settings station)), after, waiting) ∧
      plan.Applied frozen.settings (plan.finalMcr frozen.settings station) station after := by
  obtain ⟨ready, configuring, applied⟩ := run_configure node station waiting plan frozen.settings
  have final : ready.answer (Mcr.halt.put false (Mcr.frz.put false (ready.memory.get .mcr))) =
      plan.finalMcr frozen.settings station := by
    simp only [Plan.finalMcr, Station.answer, applied.mcr, applied.stalled, Station.get_setRegister,
      if_true]
    rfl
  refine ⟨ready.setRegister .mcr (plan.finalMcr frozen.settings station), ?_,
    ⟨applied.stalled, Memory.get_put_self _ _ _, ?_, ?_, ?_⟩⟩
  · simp only [start, planned, Plan.apply, leaveFreeze, bind_assoc, Program.run_bind,
      Attempt.run_lift, configuring, run_modifyMcr, final, Attempt.run_mk, run_await,
      Station.get_setRegister, if_true, verdict]
    by_cases left : 0 < frozen.settings.pollLimit ∧
        Handshake.freezeExit.reached (plan.finalMcr frozen.settings station) = true
    · by_cases ready : Handshake.ready.reached (plan.finalMcr frozen.settings station) = true
      · simp only [left, ready, and_self, if_true]
        rfl
      · simp only [left, ready]
        rfl
    · simp only [left, if_false]
      rfl
  · intro register notMcr
    rw [Station.get_setRegister, if_neg notMcr.symm]
    exact applied.get register notMcr
  · intro word bound
    rw [Station.ram_setRegister _ _ _ (by simp only [ramWords] at bound; omega)]
    exact applied.ram word bound
  · intro index bound
    rw [Memory.rxMask, Station.setRegister, Memory.put, Memory.read_write_of_ne _ _
      (by simp only [Register.offset, rxMaskOffset]; omega)]
    exact applied.rxMask index bound

theorem settings_of_start {σ : Type} (handler : Handler registers σ) {frozen : Frozen}
    {running : Running} {state : σ}
    (built : (frozen.start.run handler state).1 = .ok (.ok running)) :
    running.settings = frozen.settings := by
  simp only [start] at built
  split at built
  next => cases built
  next => cases built
  next plan _ =>
    rw [Program.run_bind, Plan.apply, Attempt.run_lift] at built
    simp only [ExceptT.run_bind, Program.run_bind] at built
    cases left : (Program.run handler (leaveFreeze frozen.settings.pollLimit).run
        (Program.run handler (plan.configure frozen.settings) state).2).1 with
    | error error =>
        rw [left] at built
        cases built
    | ok _ =>
        rw [left] at built
        cases built
        rfl

end Frozen

end BufferedCan
