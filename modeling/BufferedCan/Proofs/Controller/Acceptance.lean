import BufferedCan.Hardware.Memory
import BufferedCan.Proofs.Controller.Access
import BufferedCan.Proofs.Controller.Plan
import BufferedCan.Proofs.Controller.Requirements
import BufferedCan.Proofs.Program.Obedience

/-! Which settings a controller takes. They are checked in a fixed order, and the caller is told the first
thing that is wrong with them; only if nothing is wrong is the device accessed at all. -/

namespace BufferedCan

namespace Settings

def validBuffers (settings : Settings) : Requirement SetupError where
  met := settings.buffers.transmit ≠ settings.buffers.receive ∧
    settings.buffers.transmit < settings.mode.dataSize.bufferCount ∧
    settings.buffers.receive < settings.mode.dataSize.bufferCount
  failure := .ok .invalidBuffers

def validDelay (rate : FlexibleRate) : Requirement SetupError where
  met := ∀ offset ∈ rate.delayOffset, offset.toNat ≤ 31
  failure := .ok .invalidDelayOffset

def timingRequirements (timing : BitTiming) (clock : Clock) (limits : TimingLimits) :
    List (Requirement SetupError) :=
  (timing.requirements clock.frequency limits).map (Requirement.reported .timing)

def rateRequirements (settings : Settings) (clock : Clock) : List (Requirement SetupError) :=
  match settings.mode with
  | .classic => timingRequirements settings.nominal clock .classic
  | .flexible rate => timingRequirements settings.nominal clock .nominal ++
    (timingRequirements rate.dataTiming clock .dataPhase ++ [validDelay rate])

/-- What a controller asks of its settings, in the order in which it looks. -/
def requirements (settings : Settings) (clock : Clock) : List (Requirement SetupError) :=
  settings.validBuffers :: settings.rateRequirements clock

def RealizableRates (settings : Settings) (clock : Clock) : Prop :=
  match settings.mode with
  | .classic => settings.nominal.Realizable clock.frequency .classic
  | .flexible rate => settings.nominal.Realizable clock.frequency .nominal ∧
    rate.dataTiming.Realizable clock.frequency .dataPhase ∧
    ∀ offset ∈ rate.delayOffset, offset.toNat ≤ 31

structure Realizable (settings : Settings) (clock : Clock) : Prop where
  apart : settings.buffers.transmit ≠ settings.buffers.receive
  transmit : settings.buffers.transmit < settings.mode.dataSize.bufferCount
  receive : settings.buffers.receive < settings.mode.dataSize.bufferCount
  rates : settings.RealizableRates clock

def OverflowingRates (settings : Settings) (clock : Clock) : Prop :=
  match settings.mode with
  | .classic => settings.nominal.Shaped .classic ∧ ¬settings.nominal.Narrow
  | .flexible rate =>
    settings.nominal.Shaped .nominal ∧ ¬settings.nominal.Narrow ∨
    settings.nominal.Realizable clock.frequency .nominal ∧
      rate.dataTiming.Shaped .dataPhase ∧ ¬rate.dataTiming.Narrow

/-- The check of the settings comes to such a product, as all that is checked before it is in order. -/
structure Overflows (settings : Settings) (clock : Clock) : Prop where
  apart : settings.buffers.transmit ≠ settings.buffers.receive
  transmit : settings.buffers.transmit < settings.mode.dataSize.bufferCount
  receive : settings.buffers.receive < settings.mode.dataSize.bufferCount
  rates : settings.OverflowingRates clock

structure Narrow (settings : Settings) : Prop where
  nominal : settings.nominal.Narrow
  data : ∀ rate, settings.mode = .flexible rate → rate.dataTiming.Narrow

section
variable {timing : BitTiming} {clock : Clock} {limits : TimingLimits}

theorem timing_met_iff (positive : 1 ≤ limits.prescaler.first) :
    (∀ requirement ∈ timingRequirements timing clock limits, requirement.met) ↔
      timing.Realizable clock.frequency limits :=
  List.forall_mem_map.trans (BitTiming.requirements_met_iff positive)

theorem timing_fault_iff {fault : Fault} :
    Blames (timingRequirements timing clock limits) (.error fault) ↔
      fault = .overflow ∧ timing.Shaped limits ∧ ¬timing.Narrow := by
  have early : ¬Blames ((timing.lengths limits).map (Requirement.reported SetupError.timing))
      (.error fault) := by
    simp [BitTiming.lengths, Blames.cons_iff, Blames.not_nil, Requirement.reported, Except.map]
  have late : Blames ((timing.divisions clock.frequency limits).map
      (Requirement.reported SetupError.timing)) (.error fault) ↔
        ¬timing.Narrow ∧ Fault.overflow = fault := by
    simp [BitTiming.divisions, Blames.cons_iff, Blames.not_nil, Requirement.reported, Except.map]
  have shaped : (∀ requirement ∈ (timing.lengths limits).map
      (Requirement.reported SetupError.timing), requirement.met) ↔ timing.Shaped limits :=
    List.forall_mem_map.trans BitTiming.lengths_met_iff
  rw [timingRequirements, BitTiming.requirements, List.map_append, Blames.append_iff, late, shaped]
  constructor
  · rintro (impossible | ⟨shaped, wide, rfl⟩)
    · exact absurd impossible early
    · exact ⟨rfl, shaped, wide⟩
  · rintro ⟨rfl, shaped, wide⟩
    exact .inr ⟨shaped, wide, rfl⟩

end

variable {settings : Settings} {clock : Clock}

theorem rates_met_iff :
    (∀ requirement ∈ settings.rateRequirements clock, requirement.met) ↔
      settings.RealizableRates clock := by
  unfold rateRequirements RealizableRates
  cases settings.mode with
  | classic => exact timing_met_iff (Nat.le_refl 1)
  | flexible rate =>
      dsimp only
      rw [List.forall_mem_append, List.forall_mem_append, List.forall_mem_singleton,
        timing_met_iff (Nat.le_refl 1), timing_met_iff (Nat.le_refl 1)]
      exact Iff.rfl

theorem requirements_met_iff :
    (∀ requirement ∈ settings.requirements clock, requirement.met) ↔
      settings.Realizable clock := by
  rw [requirements, List.forall_mem_cons, rates_met_iff]
  constructor
  · rintro ⟨⟨apart, transmit, receive⟩, rates⟩
    exact ⟨apart, transmit, receive, rates⟩
  · rintro ⟨apart, transmit, receive, rates⟩
    exact ⟨⟨apart, transmit, receive⟩, rates⟩

theorem rates_fault_iff {fault : Fault} :
    Blames (settings.rateRequirements clock) (.error fault) ↔
      fault = .overflow ∧ settings.OverflowingRates clock := by
  unfold rateRequirements OverflowingRates
  cases settings.mode with
  | classic => exact timing_fault_iff
  | flexible rate =>
      have delay : ¬Blames [validDelay rate] (.error fault) := by
        simp [validDelay, Blames.cons_iff, Blames.not_nil]
      dsimp only
      rw [Blames.append_iff, Blames.append_iff, timing_fault_iff, timing_fault_iff,
        timing_met_iff (Nat.le_refl 1)]
      constructor
      · rintro (⟨rfl, wide⟩ | ⟨nominal, ⟨rfl, wide⟩ | ⟨-, late⟩⟩)
        · exact ⟨rfl, .inl wide⟩
        · exact ⟨rfl, .inr ⟨nominal, wide⟩⟩
        · exact absurd late delay
      · rintro ⟨rfl, wide | ⟨nominal, wide⟩⟩
        · exact .inl ⟨rfl, wide⟩
        · exact .inr ⟨nominal, .inl ⟨rfl, wide⟩⟩

theorem fault_iff {fault : Fault} : Blames (settings.requirements clock) (.error fault) ↔
    fault = .overflow ∧ settings.Overflows clock := by
  rw [requirements, Blames.cons_iff, rates_fault_iff]
  constructor
  · rintro (⟨-, same⟩ | ⟨⟨apart, transmit, receive⟩, rfl, wide⟩)
    · cases same
    · exact ⟨rfl, apart, transmit, receive, wide⟩
  · rintro ⟨rfl, apart, transmit, receive, wide⟩
    exact .inr ⟨⟨apart, transmit, receive⟩, rfl, wide⟩

theorem Narrow.not_overflows (narrow : settings.Narrow) : ¬settings.Overflows clock := by
  intro overflows
  have wide := overflows.rates
  unfold OverflowingRates at wide
  split at wide
  next => exact wide.2 narrow.nominal
  next rate mode =>
    rcases wide with wide | ⟨-, wide⟩
    · exact wide.2 narrow.nominal
    · exact wide.2 (narrow.data rate mode)

theorem not_timeout {handshake : Handshake} :
    ¬Blames (settings.requirements clock) (.ok (.timeout handshake)) := by
  have timing (timing : BitTiming) (limits : TimingLimits) :
      ¬Blames (timingRequirements timing clock limits) (.ok (.timeout handshake)) := by
    simp [timingRequirements, BitTiming.requirements, BitTiming.lengths, BitTiming.divisions,
      Blames.cons_iff, Blames.not_nil, Requirement.reported, Except.map]
  rw [requirements, Blames.cons_iff, rateRequirements]
  split
  next => simp [validBuffers, timing]
  next rate _ =>
    rw [Blames.append_iff, Blames.append_iff]
    simp [validBuffers, timing, validDelay, Blames.cons_iff, Blames.not_nil]

theorem delayFits_iff (rate : FlexibleRate) :
    delayFits rate = true ↔ (validDelay rate).met := by
  cases offset : rate.delayOffset <;> simp [delayFits, validDelay, offset]

theorem judged_rates (settings : Settings) (clock : Clock) :
    Judged (settings.rateRequirements clock) (settings.rates clock) := by
  have nominal (limits : TimingLimits) :=
    settings.nominal.judged_prescaler clock.frequency limits
  rw [rates, rateRequirements]
  cases settings.mode with
  | classic =>
      dsimp only
      rw [← List.append_nil (timingRequirements settings.nominal clock .classic)]
      exact (nominal .classic).bind (fun _ => rfl) fun prescaler => .passed _
  | flexible rate =>
      have data := rate.dataTiming.judged_prescaler clock.frequency .dataPhase
      refine (nominal .nominal).bind (fun _ => rfl) fun prescaler => ?_
      refine data.bind (fun _ => rfl) fun dataPrescaler => ?_
      refine .check (fun large => if_neg (mt (delayFits_iff rate).1 large)) fun small => ?_
      dsimp only
      rw [if_pos ((delayFits_iff rate).2 small)]
      exact .passed _

theorem buffers?_cases (settings : Settings) :
    (∃ transmit receive, settings.buffers? = some (transmit, receive) ∧
      settings.validBuffers.met) ∨
    settings.buffers? = none ∧ ¬settings.validBuffers.met := by
  by_cases left : settings.buffers.transmit < settings.mode.dataSize.bufferCount
  · by_cases right : settings.buffers.receive < settings.mode.dataSize.bufferCount
    · by_cases same : settings.buffers.transmit = settings.buffers.receive
      · exact .inr ⟨by simp [buffers?, Buffer.at?, same], fun valid => valid.1 same⟩
      · exact .inl ⟨⟨_, _, left⟩, ⟨_, _, right⟩,
          by simp [buffers?, Buffer.at?, left, right, same], same, left, right⟩
    · exact .inr ⟨by simp [buffers?, Buffer.at?, right], fun valid => right valid.2.2⟩
  · exact .inr ⟨by simp [buffers?, Buffer.at?, left], fun valid => left valid.2.1⟩

theorem judged_plan (settings : Settings) (clock : Clock) :
    Judged (settings.requirements clock) (settings.plan clock) := by
  rcases settings.buffers?_cases with ⟨transmit, receive, found, valid⟩ | ⟨missing, invalid⟩
  · rw [plan, found]
    dsimp only
    rcases settings.judged_rates clock with ⟨rates, rated, met⟩ | ⟨failure, rated, blames⟩
    · rw [rated]
      exact .inl ⟨_, rfl, List.forall_mem_cons.2 ⟨valid, met⟩⟩
    · rw [rated]
      refine .inr ⟨failure, ?_, .later valid blames⟩
      cases failure <;> rfl
  · rw [plan, missing]
    exact .inr ⟨.ok .invalidBuffers, rfl, .first invalid⟩

end Settings

/-! Running the setup on a device that may do anything. -/

section
variable {σ : Type} (handler : Handler registers σ) (state : σ)

theorem Handshake.run_await_cases (handshake : Handshake) (limit : Nat) :
    ((handshake.await limit).run handler state).1 = .ok () ∨
      ((handshake.await limit).run handler state).1 = .error (.timeout handshake) := by
  induction limit generalizing state with
  | zero => exact .inr rfl
  | succ limit ih =>
      rw [await, Program.run_bind]
      split
      next => exact .inl rfl
      next => exact ih _

theorem run_leaveFreeze_cases (limit : Nat) :
    ((leaveFreeze limit).run.run handler state).1 = .ok () ∨
      ∃ handshake, ((leaveFreeze limit).run.run handler state).1 =
        .error (.timeout handshake) := by
  rw [leaveFreeze, Attempt.run_lift, Attempt.run_mk]
  split
  next =>
    rw [ExceptT.run_mk]
    rcases Handshake.run_await_cases handler _ .ready limit with done | expired
    · exact .inl done
    · exact .inr ⟨.ready, expired⟩
  next error ended =>
    rcases Handshake.run_await_cases handler _ .freezeExit limit with done | expired
    · rw [done] at ended
      cases ended
    · rw [expired] at ended
      cases ended
      exact .inr ⟨.freezeExit, rfl⟩

end

namespace Frozen

/-- The settings passed all checks; at most the controller did not answer in time. -/
def Passed (outcome : Checked (Except SetupError Running)) : Prop :=
  (∃ running, outcome = .ok (.ok running)) ∨
    ∃ handshake, outcome = .ok (.error (.timeout handshake))

variable {σ : Type} (handler : Handler registers σ) (state : σ) (frozen : Frozen)

theorem passed_of_planned {plan : Plan}
    (planned : frozen.settings.plan frozen.clock = .ok (.ok plan)) :
    Passed (frozen.start.run handler state).1 := by
  have started : (frozen.start.run handler state).1 =
      .ok ((plan.apply frozen).run.run handler state).1 := by
    simp only [start, planned]
    rw [Program.run_bind]
    rfl
  rw [started, Plan.apply, Attempt.run_lift, ExceptT.run_bind, Program.run_bind]
  rcases run_leaveFreeze_cases handler ((plan.configure frozen.settings).run handler state).2
    frozen.settings.pollLimit with left | ⟨handshake, expired⟩
  · rw [left]
    exact .inl ⟨_, rfl⟩
  · rw [expired]
    exact .inr ⟨handshake, rfl⟩

theorem start_outcome :
    frozen.settings.Realizable frozen.clock ∧ Passed (frozen.start.run handler state).1 ∨
    ¬frozen.settings.Realizable frozen.clock ∧ ∃ failure,
      Blames (frozen.settings.requirements frozen.clock) failure ∧
      frozen.start = .done (failure.map .error) := by
  rcases frozen.settings.judged_plan frozen.clock with
    ⟨plan, planned, met⟩ | ⟨failure, refused, blames⟩
  · exact .inl ⟨Settings.requirements_met_iff.1 met,
      frozen.passed_of_planned handler state planned⟩
  · refine .inr ⟨?_, failure, blames, ?_⟩
    · intro realizable
      obtain ⟨requirement, member, violated, -⟩ := blames.exists_violated
      exact violated (Settings.requirements_met_iff.2 realizable requirement member)
    · cases failure <;> simp only [start, refused, Except.map]

/-- A controller takes exactly the settings that can be realized. Others are refused before the first
access, and the caller is told the first thing that is wrong with them. -/
theorem start_accepts_iff (narrow : frozen.settings.Narrow) :
    (Passed (frozen.start.run handler state).1 ↔ frozen.settings.Realizable frozen.clock) ∧
      (¬frozen.settings.Realizable frozen.clock → ∃ error,
        Blames (frozen.settings.requirements frozen.clock) (.ok error) ∧
        frozen.start.run handler state = (.ok (.error error), state) ∧
        frozen.start.trace handler state = []) := by
  rcases frozen.start_outcome handler state with
    ⟨realizable, passed⟩ | ⟨unrealizable, failure, blames, stopped⟩
  · exact ⟨iff_of_true passed realizable, fun not => absurd realizable not⟩
  · cases failure with
    | error fault => exact absurd (Settings.fault_iff.1 blames).2 narrow.not_overflows
    | ok error =>
        rw [stopped]
        refine ⟨iff_of_false ?_ unrealizable, fun _ => ⟨error, blames, rfl, rfl⟩⟩
        rintro (⟨running, same⟩ | ⟨handshake, same⟩)
        · cases same
        · cases same
          exact Settings.not_timeout blames

/-- Wrong in two places: the second phase segment is too short, and no bit rate is asked for. -/
def twiceWrong : Frozen where
  clock := .oscillator
  settings := { nominal := { bitRate := 0, propagation := 8, phase2 := 1 } }

theorem start_accepts_iff_twiceWrong :
    twiceWrong.start.run Memory.access .zero =
        (.ok (.error (.timing (.outOfRange .phase2 ⟨2, 8⟩))), .zero) ∧
      twiceWrong.start.trace Memory.access .zero = [] := by
  have narrow : twiceWrong.settings.Narrow := by
    refine ⟨?_, fun _ same => by cases same⟩
    show 0 * 14 < 4294967296
    omega
  have unrealizable : ¬twiceWrong.settings.Realizable twiceWrong.clock := by
    intro realizable
    have rates : twiceWrong.settings.nominal.Realizable twiceWrong.clock.frequency .classic :=
      realizable.rates
    exact rates.rated rfl
  have blamed : Blames (twiceWrong.settings.requirements twiceWrong.clock)
      (.ok (.timing (.outOfRange .phase2 ⟨2, 8⟩))) := by
    refine .later ⟨by decide, by decide, by decide⟩ (.later ⟨by decide, by decide⟩
      (.later ⟨by decide, by decide⟩ (.later ⟨by decide, by decide⟩ (.first ?_))))
    rintro ⟨long, -⟩
    exact absurd long (by decide)
  obtain ⟨error, blames, ran, untouched⟩ :=
    (start_accepts_iff Memory.access .zero twiceWrong narrow).2 unrealizable
  cases blames.unique blamed
  exact ⟨ran, untouched⟩

end Frozen

end BufferedCan
