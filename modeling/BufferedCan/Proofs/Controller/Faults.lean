import BufferedCan.Proofs.Controller.Acceptance
import BufferedCan.Proofs.Controller.Rates

/-! How a setup can end in a fault. The rate of the quanta is multiplied out in 32 bits before anything has
bounded it; all other arithmetic works on what has passed a check, and every access lies in the register
block. -/

namespace BufferedCan

namespace Access

def offset : Access → Nat
  | read offset => offset
  | write offset _ => offset

def Inside (access : Access) : Prop :=
  access.offset % 4 = 0 ∧ access.offset / 4 < blockWords

end Access

theorem Register.inside (register : Register) :
    register.offset % 4 = 0 ∧ register.offset / 4 < blockWords := by
  cases register <;> decide

theorem Register.read_inside (register : Register) : register.read.Within Access.Inside :=
  ⟨register.inside, fun _ => trivial⟩

theorem Register.write_inside (register : Register) (value : UInt32) :
    (register.write value).Within Access.Inside :=
  ⟨register.inside, fun _ => trivial⟩

theorem Register.modify_inside (register : Register) (change : UInt32 → UInt32) :
    (register.modify change).Within Access.Inside :=
  Program.within_bind register.read_inside fun _ => register.write_inside _

theorem writeRam_inside {word : Nat} (value : UInt32) (bound : word < ramWords) :
    (writeRam word value).Within Access.Inside := by
  refine ⟨?_, fun _ => trivial⟩
  simp only [ramWords] at bound
  simp only [Access.Inside, Access.offset, ramOffset, blockWords]
  omega

theorem writeRxMask_inside {index : Nat} (value : UInt32) (bound : index < rxMaskCount) :
    (writeRxMask index value).Within Access.Inside := by
  refine ⟨?_, fun _ => trivial⟩
  simp only [rxMaskCount] at bound
  simp only [Access.Inside, Access.offset, rxMaskOffset, blockWords]
  omega

theorem Buffer.arm_inside (buffer : Buffer) (id : BitVec 11) (fd : Bool) :
    (buffer.arm id fd).Within Access.Inside := by
  have room := buffer.controlWord_add_bufferWords_le
  have words : 2 ≤ buffer.size.bufferWords := Nat.le_add_right _ _
  have ident : buffer.identWord < ramWords := by
    rw [identWord]
    omega
  exact Program.within_bind (writeRam_inside _ ident) fun _ => writeRam_inside _ (by omega)

theorem Rates.program_inside (rates : Rates) (nominal : BitTiming) :
    (rates.program nominal).Within Access.Inside := by
  cases rates with
  | classic prescaler =>
      refine Program.within_bind (Register.modify_inside _ _) fun _ => ?_
      exact Program.within_bind (Register.modify_inside _ _) fun _ => Register.modify_inside _ _
  | flexible rate prescaler dataPrescaler =>
      refine Program.within_bind (Register.modify_inside _ _) fun _ => ?_
      refine Program.within_bind (Register.modify_inside _ _) fun _ => ?_
      exact Program.within_bind (Register.modify_inside _ _) fun _ => Register.modify_inside _ _

theorem Plan.prepareBuffers_inside (plan : Plan) (settings : Settings) :
    (plan.prepareBuffers settings).Within Access.Inside := by
  have clear : (Program.forEach (List.range ramWords) fun word => writeRam word 0).Within
      Access.Inside :=
    Program.within_forEach fun word member => writeRam_inside 0 (List.mem_range.1 member)
  have unmask : (Program.forEach (List.range rxMaskCount) fun index =>
      writeRxMask index 0xFFFFFFFF).Within Access.Inside :=
    Program.within_forEach fun index member => writeRxMask_inside _ (List.mem_range.1 member)
  refine Program.within_bind clear fun _ => Program.within_bind unmask fun _ => ?_
  exact Program.within_bind (Register.write_inside .rxMgMask _) fun _ =>
    plan.receiveBuffer.arm_inside _ _

theorem Plan.configure_inside (plan : Plan) (settings : Settings) :
    (plan.configure settings).Within Access.Inside := by
  refine Program.within_bind (plan.rates.program_inside _) fun _ => ?_
  refine Program.within_bind (Register.modify_inside _ _) fun _ => ?_
  exact Program.within_bind (plan.prepareBuffers_inside settings) fun _ =>
    Register.modify_inside _ _

theorem Handshake.await_inside (handshake : Handshake) (limit : Nat) :
    (handshake.await limit).Within Access.Inside := by
  induction limit with
  | zero => trivial
  | succ limit ih =>
      refine Program.within_bind (Register.read_inside .mcr) fun word => ?_
      split
      next => trivial
      next => exact ih

theorem Attempt.within_bind {ε α β : Type} {allowed : Access → Prop} {attempt : Attempt ε α}
    {next : α → Attempt ε β} (first : attempt.run.Within allowed)
    (rest : ∀ value, (next value).run.Within allowed) : (attempt >>= next).run.Within allowed := by
  rw [ExceptT.run_bind]
  refine Program.within_bind first fun outcome => ?_
  cases outcome with
  | error error => trivial
  | ok value => exact rest value

theorem Attempt.within_lift {ε α : Type} {allowed : Access → Prop} {program : Program registers α}
    (within : program.Within allowed) : (liftM program : Attempt ε α).run.Within allowed :=
  Program.within_bind within fun _ => trivial

theorem leaveFreeze_inside (limit : Nat) : (leaveFreeze limit).run.Within Access.Inside := by
  refine Attempt.within_bind (Attempt.within_lift (Register.modify_inside _ _)) fun _ => ?_
  exact Attempt.within_bind (Handshake.await_inside _ limit) fun _ => Handshake.await_inside _ limit

theorem Frozen.start_inside (frozen : Frozen) : frozen.start.Within Access.Inside := by
  unfold Frozen.start
  split
  next => trivial
  next => trivial
  next plan _ =>
    refine Program.within_bind ?_ fun _ => trivial
    refine Attempt.within_bind (Attempt.within_lift (plan.configure_inside _)) fun _ => ?_
    exact Attempt.within_bind (leaveFreeze_inside _) fun _ => trivial

/-- Every number that the plan writes less one is at least one, and what is left fits into its field. -/
structure Plan.Encodable (plan : Plan) (settings : Settings) : Prop where
  rates : match plan.rates with
    | .classic prescaler => TimingFormat.classic.Encodes settings.nominal prescaler
    | .flexible rate prescaler dataPrescaler =>
      TimingFormat.nominal.Encodes settings.nominal prescaler ∧
      TimingFormat.dataPhase.Encodes rate.dataTiming dataPrescaler ∧
      (rate.delayOffset.getD 0).toNat < FdCtrl.tdcoff.size
  last : 1 ≤ plan.transmitBuffer.size.bufferCount ∧
    plan.transmitBuffer.size.bufferCount - 1 < Mcr.maxmb.size

theorem Settings.Planned.encodable {settings : Settings} {clock : Clock} {plan : Plan}
    (planned : settings.Planned clock plan) : plan.Encodable settings := by
  refine ⟨?_, plan.transmitBuffer.size.bufferCount_pos, ?_⟩
  · have rates := planned.rates
    generalize plan.rates = chosen at rates
    cases rates with
    | classic _ nominal => exact TimingFormat.classic_admits.encodes nominal
    | flexible _ nominal data delay =>
        exact ⟨TimingFormat.nominal_admits.encodes nominal,
          TimingFormat.dataPhase_admits.encodes data, Settings.delayOffset_lt delay⟩
  · have few := plan.transmitBuffer.size.bufferCount_le
    show plan.transmitBuffer.size.bufferCount - 1 < 128
    omega

theorem Settings.Overflows.unrealizable {settings : Settings} {clock : Clock}
    (overflows : settings.Overflows clock) : ¬settings.Realizable clock := by
  intro realizable
  obtain ⟨requirement, member, violated, -⟩ :=
    (fault_iff.2 ⟨rfl, overflows⟩).exists_violated
  exact violated (requirements_met_iff.2 realizable requirement member)

namespace Frozen

variable {σ : Type} (handler : Handler registers σ) (state : σ) (frozen : Frozen)

theorem run_start_of_overflows (overflows : frozen.settings.Overflows frozen.clock) :
    frozen.start.run handler state = (.error .overflow, state) := by
  rcases frozen.start_outcome handler state with ⟨realizable, -⟩ | ⟨-, failure, blames, stopped⟩
  · exact absurd realizable overflows.unrealizable
  · cases blames.unique (Settings.fault_iff.2 ⟨rfl, overflows⟩)
    rw [stopped]
    rfl

theorem overflows_of_fault {fault : Fault}
    (ended : (frozen.start.run handler state).1 = .error fault) :
    frozen.settings.Overflows frozen.clock := by
  rcases frozen.start_outcome handler state with
    ⟨-, ⟨running, passed⟩ | ⟨handshake, passed⟩⟩ | ⟨-, failure, blames, stopped⟩
  · rw [passed] at ended
    cases ended
  · rw [passed] at ended
    cases ended
  · rw [stopped] at ended
    cases failure with
    | ok error => cases ended
    | error fault => exact (Settings.fault_iff.1 blames).2

/-- A setup ends in a fault exactly if the rate of the quanta of a timing, looked at in its turn, is no
number of 32 bits. It has then made no access, and the settings could not be realized anyway. Nothing
else that it computes or accesses can leave its range. -/
theorem start_faults_iff :
    ((∃ fault, (frozen.start.run handler state).1 = .error fault) ↔
        frozen.settings.Overflows frozen.clock) ∧
      (frozen.settings.Overflows frozen.clock →
        frozen.start.run handler state = (.error .overflow, state) ∧
        ¬frozen.settings.Realizable frozen.clock) ∧
      (∀ plan, frozen.settings.plan frozen.clock = .ok (.ok plan) →
        plan.Encodable frozen.settings) ∧
      ∀ event ∈ frozen.start.trace handler state, event.call.Inside := by
  refine ⟨⟨?_, ?_⟩, ?_, ?_, frozen.start_inside.trace handler state⟩
  · rintro ⟨fault, ended⟩
    exact frozen.overflows_of_fault handler state ended
  · intro overflows
    rw [frozen.run_start_of_overflows handler state overflows]
    exact ⟨.overflow, rfl⟩
  · intro overflows
    exact ⟨frozen.run_start_of_overflows handler state overflows, overflows.unrealizable⟩
  · intro plan planned
    exact (Settings.planned_of_ok planned).encodable

def fastest : Frozen where
  clock := .oscillator
  settings := .ofBitRate 4294967295

theorem start_faults_iff_fastest :
    fastest.start.run Memory.access .zero = (.error .overflow, .zero) ∧
      ¬fastest.settings.Realizable fastest.clock := by
  have shaped : fastest.settings.nominal.Shaped .classic := by
    constructor <;> exact ⟨by decide, by decide⟩
  have wide : ¬fastest.settings.nominal.Narrow := by
    show ¬4294967295 * 16 < 4294967296
    omega
  have overflows : fastest.settings.Overflows fastest.clock :=
    ⟨by decide, by decide, by decide, shaped, wide⟩
  exact (start_faults_iff Memory.access .zero fastest).2.1 overflows

end Frozen

end BufferedCan
