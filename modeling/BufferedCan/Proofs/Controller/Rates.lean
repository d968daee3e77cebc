import BufferedCan.Proofs.Controller.Modes
import BufferedCan.Proofs.Controller.Plan
import BufferedCan.Proofs.Controller.Setup

/-! Bit rates in the registers. A timing register has a field for each segment and one for the prescaler,
and the controller adds to each what the format leaves out. What passes the checks fits into the fields,
so the controller reads exactly the timing that was asked for. -/

namespace BufferedCan

/-- Where a register keeps the parts of a bit timing. `unstored` is what the register leaves out of the
propagation segment; of every other part it leaves out one. -/
structure TimingFormat where
  prescaler : Field
  jumpWidth : Field
  propagation : Field
  phase1 : Field
  phase2 : Field
  unstored : Nat

namespace TimingFormat

def classic : TimingFormat where
  prescaler := Ctrl1.presdiv
  jumpWidth := Ctrl1.rjw
  propagation := Ctrl1.propseg
  phase1 := Ctrl1.pseg1
  phase2 := Ctrl1.pseg2
  unstored := 1

def nominal : TimingFormat where
  prescaler := Cbt.epresdiv
  jumpWidth := Cbt.erjw
  propagation := Cbt.epropseg
  phase1 := Cbt.epseg1
  phase2 := Cbt.epseg2
  unstored := 1

def dataPhase : TimingFormat where
  prescaler := FdCbt.fpresdiv
  jumpWidth := FdCbt.frjw
  propagation := FdCbt.fpropseg
  phase1 := FdCbt.fpseg1
  phase2 := FdCbt.fpseg2
  unstored := 0

/-- The controller reads the timing out of the word, and gets its bit rate from the clock. -/
structure Decodes (format : TimingFormat) (timing : BitTiming) (clock word : UInt32) : Prop where
  jumpWidth : format.jumpWidth.get word + 1 = timing.jumpWidth.toNat
  propagation : format.propagation.get word + format.unstored = timing.propagation.toNat
  phase1 : format.phase1.get word + 1 = timing.phase1.toNat
  phase2 : format.phase2.get word + 1 = timing.phase2.toNat
  rate : (format.prescaler.get word + 1) * (3 + format.unstored + format.propagation.get word +
    format.phase1.get word + format.phase2.get word) * timing.bitRate.toNat = clock.toNat

structure Programmed (format : TimingFormat) (timing : BitTiming) (prescaler : Nat)
    (word : UInt32) : Prop where
  prescaler : format.prescaler.get word = (prescaler - 1) % format.prescaler.size
  jumpWidth : format.jumpWidth.get word = (timing.jumpWidth.toNat - 1) % format.jumpWidth.size
  propagation : format.propagation.get word =
    (timing.propagation.toNat - format.unstored) % format.propagation.size
  phase1 : format.phase1.get word = (timing.phase1.toNat - 1) % format.phase1.size
  phase2 : format.phase2.get word = (timing.phase2.toNat - 1) % format.phase2.size

structure Admits (format : TimingFormat) (limits : TimingLimits) : Prop where
  prescaler : 1 ≤ limits.prescaler.first ∧ limits.prescaler.last ≤ format.prescaler.size
  jumpWidth : 1 ≤ limits.jumpWidth.first ∧ limits.jumpWidth.last ≤ format.jumpWidth.size
  propagation : format.unstored ≤ limits.propagation.first ∧
    limits.propagation.last < format.propagation.size + format.unstored
  phase1 : 1 ≤ limits.phase1.first ∧ limits.phase1.last ≤ format.phase1.size
  phase2 : 1 ≤ limits.phase2.first ∧ limits.phase2.last ≤ format.phase2.size

theorem classic_admits : classic.Admits .classic := by
  constructor <;> decide

theorem nominal_admits : nominal.Admits .nominal := by
  constructor <;> decide

theorem dataPhase_admits : dataPhase.Admits .dataPhase := by
  constructor <;> decide

end TimingFormat

theorem BitTiming.violation?_of_prescaler {timing : BitTiming} {clock : UInt32}
    {limits : TimingLimits} {found : Nat}
    (accepted : timing.prescaler clock limits = .ok (.ok found)) :
    timing.violation? limits = none := by
  cases violated : timing.violation? limits with
  | none => rfl
  | some error => simp [BitTiming.prescaler, violated] at accepted

namespace TimingFormat

variable {format : TimingFormat} {limits : TimingLimits} {timing : BitTiming} {prescaler : Nat}
  {clock word : UInt32}

structure Encodes (format : TimingFormat) (timing : BitTiming) (prescaler : Nat) : Prop where
  prescaler : 1 ≤ prescaler ∧ prescaler - 1 < format.prescaler.size
  jumpWidth : 1 ≤ timing.jumpWidth.toNat ∧ timing.jumpWidth.toNat - 1 < format.jumpWidth.size
  propagation : format.unstored ≤ timing.propagation.toNat ∧
    timing.propagation.toNat - format.unstored < format.propagation.size
  phase1 : 1 ≤ timing.phase1.toNat ∧ timing.phase1.toNat - 1 < format.phase1.size
  phase2 : 1 ≤ timing.phase2.toNat ∧ timing.phase2.toNat - 1 < format.phase2.size

theorem Admits.encodes (admits : format.Admits limits)
    (accepted : timing.prescaler clock limits = .ok (.ok prescaler)) :
    format.Encodes timing prescaler := by
  obtain ⟨-, within⟩ := BitTiming.prescaler_exact accepted
  obtain ⟨jump, propagation, first, second, -⟩ :=
    (timing.violation?_eq_none_iff limits).mp (BitTiming.violation?_of_prescaler accepted)
  rw [Span.contains_iff] at within jump propagation first second
  obtain ⟨prescalerRoom, jumpRoom, propagationRoom, firstRoom, secondRoom⟩ := admits
  constructor <;> omega

theorem Programmed.decodes (programmed : format.Programmed timing prescaler word)
    (admits : format.Admits limits)
    (accepted : timing.prescaler clock limits = .ok (.ok prescaler)) :
    format.Decodes timing clock word := by
  have encodes := admits.encodes accepted
  have jumpWord : format.jumpWidth.get word + 1 = timing.jumpWidth.toNat := by
    rw [programmed.jumpWidth, Nat.mod_eq_of_lt encodes.jumpWidth.2]
    exact Nat.sub_add_cancel encodes.jumpWidth.1
  have propagationWord : format.propagation.get word + format.unstored =
      timing.propagation.toNat := by
    rw [programmed.propagation, Nat.mod_eq_of_lt encodes.propagation.2]
    exact Nat.sub_add_cancel encodes.propagation.1
  have firstWord : format.phase1.get word + 1 = timing.phase1.toNat := by
    rw [programmed.phase1, Nat.mod_eq_of_lt encodes.phase1.2]
    exact Nat.sub_add_cancel encodes.phase1.1
  have secondWord : format.phase2.get word + 1 = timing.phase2.toNat := by
    rw [programmed.phase2, Nat.mod_eq_of_lt encodes.phase2.2]
    exact Nat.sub_add_cancel encodes.phase2.1
  have prescalerWord : format.prescaler.get word + 1 = prescaler := by
    rw [programmed.prescaler, Nat.mod_eq_of_lt encodes.prescaler.2]
    exact Nat.sub_add_cancel encodes.prescaler.1
  refine ⟨jumpWord, propagationWord, firstWord, secondWord, ?_⟩
  have quanta : 3 + format.unstored + format.propagation.get word + format.phase1.get word +
      format.phase2.get word = timing.quanta := by
    rw [BitTiming.quanta]
    omega
  rw [prescalerWord, quanta]
  exact (BitTiming.prescaler_exact accepted).1

theorem programmed_ctrl1 (timing : BitTiming) (prescaler : Nat) (on : Bool) (word : UInt32) :
    classic.Programmed timing prescaler
      (Ctrl1.lpb.put on (Ctrl1.withTiming timing prescaler word)) := by
  constructor <;> simp only [classic, Ctrl1.withTiming] <;>
    simp (disch := decide) only [Field.get_put_of_disjoint, Field.get_set_of_disjoint, Field.get_set]

theorem programmed_cbt (timing : BitTiming) (prescaler : Nat) (word : UInt32) :
    nominal.Programmed timing prescaler (Cbt.withTiming timing prescaler word) := by
  constructor <;> simp only [nominal, Cbt.withTiming] <;>
    simp (disch := decide) only [Field.get_set_of_disjoint, Field.get_set]

theorem programmed_fdCbt (timing : BitTiming) (prescaler : Nat) (word : UInt32) :
    dataPhase.Programmed timing prescaler (FdCbt.withTiming timing prescaler word) := by
  constructor <;> simp only [dataPhase, FdCbt.withTiming, Nat.sub_zero] <;>
    simp (disch := decide) only [Field.get_set_of_disjoint, Field.get_set]

end TimingFormat

theorem Settings.delayOffset_lt {rate : FlexibleRate} (fits : delayFits rate = true) :
    (rate.delayOffset.getD 0).toNat < FdCtrl.tdcoff.size := by
  show (rate.delayOffset.getD 0).toNat < 32
  cases given : rate.delayOffset with
  | none => decide
  | some value =>
      simp only [delayFits, given, Option.all_some, decide_eq_true_eq] at fits
      simp only [Option.getD_some]
      omega

def Station.Timed (settings : Settings) (clock : Clock) (station : Station) : Prop :=
  match settings.mode with
  | .classic =>
    Cbt.btf.isSet (station.memory.get .cbt) = false ∧
    Ctrl2.isocanfden.isSet (station.memory.get .ctrl2) = false ∧
    TimingFormat.classic.Decodes settings.nominal clock.frequency (station.memory.get .ctrl1)
  | .flexible rate =>
    Cbt.btf.isSet (station.memory.get .cbt) = true ∧
    Ctrl2.isocanfden.isSet (station.memory.get .ctrl2) = true ∧
    TimingFormat.nominal.Decodes settings.nominal clock.frequency (station.memory.get .cbt) ∧
    TimingFormat.dataPhase.Decodes rate.dataTiming clock.frequency (station.memory.get .fdCbt) ∧
    FdCtrl.fdrate.isSet (station.memory.get .fdCtrl) = rate.allowSwitching ∧
    FdCtrl.mbdsr0.get (station.memory.get .fdCtrl) = rate.dataSize.toBits ∧
    FdCtrl.tdcen.isSet (station.memory.get .fdCtrl) = rate.delayOffset.isSome ∧
    FdCtrl.tdcoff.get (station.memory.get .fdCtrl) = (rate.delayOffset.getD 0).toNat

theorem Station.timed_of_applied {settings : Settings} {clock : Clock} {plan : Plan} {mcr : UInt32}
    {before after : Station} (planned : settings.Planned clock plan)
    (applied : plan.Applied settings mcr before after) : after.Timed settings clock := by
  have ctrl1 := applied.get .ctrl1 (by decide)
  have ctrl2 := applied.get .ctrl2 (by decide)
  have cbt := applied.get .cbt (by decide)
  have fdCbt := applied.get .fdCbt (by decide)
  have fdCtrl := applied.get .fdCtrl (by decide)
  have rates := planned.rates
  -- The prescalers come with the evidence that the timing passed its checks.
  generalize plan.rates = chosen at rates ctrl1 ctrl2 cbt fdCbt fdCtrl
  cases rates with
  | classic mode nominal =>
      simp only [Station.Timed, mode, ctrl1, ctrl2, cbt, Rates.content]
      refine ⟨Field.isSet_put_bit 31 (by decide) false _, Field.isSet_put_bit 12 (by decide) false _, ?_⟩
      exact (TimingFormat.programmed_ctrl1 _ _ _ _).decodes TimingFormat.classic_admits nominal
  | @flexible rate prescaler dataPrescaler mode nominal data delay =>
      have offset := Settings.delayOffset_lt delay
      have size : rate.dataSize.toBits < FdCtrl.mbdsr0.size := by
        cases rate.dataSize <;> decide
      simp only [Station.Timed, mode, ctrl2, cbt, fdCbt, fdCtrl, Rates.content]
      refine ⟨?_, Field.isSet_put_bit 12 (by decide) true _,
        (TimingFormat.programmed_cbt _ _ _).decodes TimingFormat.nominal_admits nominal,
        (TimingFormat.programmed_fdCbt _ _ _).decodes TimingFormat.dataPhase_admits data, ?_, ?_, ?_,
        ?_⟩
      · simp only [Cbt.withTiming]
        simp (disch := decide) only [Field.isSet_set_of_disjoint]
        exact Field.isSet_put_bit 31 (by decide) true _
      · simp only [FdCtrl.withRate]
        simp (disch := decide) only [Field.isSet_set_of_disjoint, Field.isSet_put_of_disjoint]
        exact Field.isSet_put_bit 31 (by decide) _ _
      · simp only [FdCtrl.withRate]
        simp (disch := decide) only [Field.get_set_of_disjoint, Field.get_put_of_disjoint]
        exact Field.get_set_of_lt size _
      · simp only [FdCtrl.withRate]
        simp (disch := decide) only [Field.isSet_set_of_disjoint]
        exact Field.isSet_put_bit 15 (by decide) _ _
      · simp only [FdCtrl.withRate]
        exact Field.get_set_of_lt offset _

def Register.timing : List Register := [.ctrl1, .ctrl2, .cbt, .fdCbt, .fdCtrl]

def Register.programmed (fd : Bool) : Register → List Field
  | .ctrl1 =>
    if fd then [Ctrl1.lpb]
    else [Ctrl1.presdiv, Ctrl1.rjw, Ctrl1.pseg1, Ctrl1.pseg2, Ctrl1.propseg, Ctrl1.lpb]
  | .ctrl2 => [Ctrl2.isocanfden]
  | .cbt =>
    if fd then [Cbt.btf, Cbt.epresdiv, Cbt.erjw, Cbt.epropseg, Cbt.epseg1, Cbt.epseg2]
    else [Cbt.btf]
  | .fdCbt =>
    if fd then [FdCbt.fpresdiv, FdCbt.frjw, FdCbt.fpropseg, FdCbt.fpseg1, FdCbt.fpseg2] else []
  | .fdCtrl => if fd then [FdCtrl.fdrate, FdCtrl.mbdsr0, FdCtrl.tdcen, FdCtrl.tdcoff] else []
  | _ => []

/-- The fields of the timing registers that anybody programs: whoever takes over a controller also
selects its clock. -/
def Register.programmable (register : Register) : List Field :=
  (if register = .ctrl1 then [Ctrl1.clksrc] else []) ++ register.programmed false ++
    register.programmed true

theorem Register.mem_programmable {register : Register} {fd : Bool} {field : Field}
    (member : field ∈ register.programmed fd) : field ∈ register.programmable := by
  simp only [programmable, List.mem_append]
  cases fd with
  | false => exact .inl (.inr member)
  | true => exact .inr member

def Station.KeepsOutside (fields : Register → List Field) (before after : Station) : Prop :=
  ∀ register ∈ Register.timing, ∀ index,
    (∀ field ∈ fields register, field.covers index = false) →
      (after.memory.get register).toNat.testBit index =
        (before.memory.get register).toNat.testBit index

theorem Field.testBit_set_of_outside {field : Field} {index : Nat}
    (outside : field.covers index = false) (value : Nat) (word : UInt32) :
    (field.set value word).toNat.testBit index = word.toNat.testBit index := by
  rw [Field.testBit_set, outside, if_neg Bool.false_ne_true]

theorem Settings.RatesFor.testBit_content {settings : Settings} {clock : Clock} {rates : Rates}
    (chosen : settings.RatesFor clock rates) {register : Register}
    (timed : register ∈ Register.timing) {index : Nat}
    (outside : ∀ field ∈ register.programmed settings.mode.isFd, field.covers index = false)
    (word : UInt32) :
    (rates.content settings register word).toNat.testBit index = word.toNat.testBit index := by
  simp only [Register.timing, List.mem_cons, List.not_mem_nil, or_false] at timed
  cases chosen with
  | classic mode =>
      rw [mode] at outside
      rcases timed with rfl | rfl | rfl | rfl | rfl <;>
        simp only [Register.programmed, Mode.isFd, Bool.false_eq_true, if_false,
          List.forall_mem_cons] at outside <;>
        simp only [Rates.content, Ctrl1.withTiming, Field.put, Field.testBit_set_of_outside, outside]
  | flexible mode =>
      rw [mode] at outside
      rcases timed with rfl | rfl | rfl | rfl | rfl <;>
        simp only [Register.programmed, Mode.isFd, if_true, List.forall_mem_cons] at outside <;>
        simp only [Rates.content, Cbt.withTiming, FdCbt.withTiming, FdCtrl.withRate, Field.put,
          Field.testBit_set_of_outside, outside]

namespace Station

variable {before after first second third : Station} {fields : Register → List Field}

theorem KeepsOutside.refl (fields : Register → List Field) (station : Station) :
    station.KeepsOutside fields station := fun _ _ _ _ => rfl

theorem KeepsOutside.trans (left : first.KeepsOutside fields second)
    (right : second.KeepsOutside fields third) : first.KeepsOutside fields third := by
  intro register timed index outside
  rw [right register timed index outside, left register timed index outside]

theorem KeepsOutside.mono {more : Register → List Field} (kept : before.KeepsOutside fields after)
    (fewer : ∀ register, ∀ field ∈ fields register, field ∈ more register) :
    before.KeepsOutside more after := by
  intro register timed index outside
  refine kept register timed index ?_
  intro field member
  exact outside field (fewer register field member)

theorem keepsOutside_of_get
    (same : ∀ register ∈ Register.timing, after.memory.get register = before.memory.get register) :
    before.KeepsOutside fields after := by
  intro register timed index _
  rw [same register timed]

theorem keepsOutside_of_applied {plan : Plan} {settings : Settings} {clock : Clock} {mcr : UInt32}
    (planned : settings.Planned clock plan) (applied : plan.Applied settings mcr before after) :
    before.KeepsOutside (Register.programmed settings.mode.isFd) after := by
  intro register timed index outside
  have apart : register ≠ .mcr := by
    rintro rfl
    simp [Register.timing] at timed
  rw [applied.get register apart]
  exact planned.rates.testBit_content timed outside _

def Inherits (before after : Station) : Prop := before.KeepsOutside Register.programmable after

theorem Inherits.refl (station : Station) : station.Inherits station := KeepsOutside.refl _ station

theorem Inherits.trans (left : first.Inherits second) (right : second.Inherits third) :
    first.Inherits third := KeepsOutside.trans left right

theorem KeepsSetup.inherits (kept : before.KeepsSetup after) : before.Inherits after := by
  refine keepsOutside_of_get ?_
  intro register timed
  refine kept.get register ?_ ?_
  · rintro rfl
    simp [Register.timing] at timed
  · rintro rfl
    simp [Register.timing] at timed

theorem inherits_mcr (station : Station) (value : UInt32) :
    station.Inherits (station.setRegister .mcr value) := by
  refine keepsOutside_of_get ?_
  intro register timed
  rw [get_setRegister, if_neg]
  rintro rfl
  simp [Register.timing] at timed

theorem inherits_of_applied {plan : Plan} {settings : Settings} {clock : Clock} {mcr : UInt32}
    (planned : settings.Planned clock plan) (applied : plan.Applied settings mcr before after) :
    before.Inherits after :=
  (keepsOutside_of_applied planned applied).mono fun _ _ => Register.mem_programmable

theorem inherits_clksrc (station : Station) (on : Bool) :
    station.Inherits (station.setRegister .ctrl1 (Ctrl1.clksrc.put on (station.memory.get .ctrl1))) := by
  intro register timed index outside
  rw [get_setRegister]
  split
  next own =>
    subst own
    exact Field.testBit_set_of_outside (outside Ctrl1.clksrc (by simp [Register.programmable])) _ _
  next => rfl

theorem inherits_disabled (station : Station) : station.Inherits station.disabled :=
  station.inherits_mcr _

theorem inherits_clocked (station : Station) (clock : Clock) :
    station.Inherits (station.clocked clock) := by
  have selected := station.disabled.inherits_clksrc (clock.source == .peripheral)
  have same : station.disabled.memory.get .ctrl1 = station.memory.get .ctrl1 := by
    rw [disabled, get_setRegister, if_neg (by decide)]
  rw [same] at selected
  exact station.inherits_disabled.trans (selected.trans (inherits_mcr _ _))

theorem inherits_taken (station : Station) (clock : Clock) :
    station.Inherits (station.taken clock) :=
  (station.inherits_clocked clock).trans (inherits_mcr _ _)

structure Spared (before after : Station) : Prop where
  timer : after.memory.get .timer = before.memory.get .timer
  inherits : before.Inherits after

theorem Spared.refl (station : Station) : station.Spared station := ⟨rfl, .refl station⟩

theorem spared_mcr (station : Station) (value : UInt32) :
    station.Spared (station.setRegister .mcr value) :=
  ⟨by rw [get_setRegister, if_neg (by decide)], station.inherits_mcr value⟩

theorem spared_of_applied {plan : Plan} {settings : Settings} {clock : Clock} {mcr : UInt32}
    (planned : settings.Planned clock plan) (applied : plan.Applied settings mcr before after) :
    before.Spared after :=
  ⟨applied.get .timer (by decide), inherits_of_applied planned applied⟩

theorem spared_disabled (station : Station) : station.Spared station.disabled :=
  station.spared_mcr _

theorem spared_clocked (station : Station) (clock : Clock) :
    station.Spared (station.clocked clock) :=
  ⟨by simp [clocked, disabled, get_setRegister], station.inherits_clocked clock⟩

theorem spared_taken (station : Station) (clock : Clock) : station.Spared (station.taken clock) :=
  ⟨station.get_taken clock (by decide) (by decide), station.inherits_taken clock⟩

end Station

end BufferedCan
