import BufferedCan.BitTiming

/-! What is asked of a bit timing. The requirements have an order, and a check reports the first of them
that is not met. -/

namespace BufferedCan

instance : Membership Nat Span := ⟨fun span value => span.first ≤ value ∧ value ≤ span.last⟩

theorem Span.mem_iff {span : Span} {value : Nat} :
    value ∈ span ↔ span.contains value = true := (span.contains_iff value).symm

/-- What has to hold, and how a check ends if it does not: with an error, or in a fault. -/
structure Requirement (ε : Type) where
  met : Prop
  failure : Checked ε

def Requirement.reported {ε δ : Type} (report : ε → δ) (requirement : Requirement ε) :
    Requirement δ :=
  ⟨requirement.met, requirement.failure.map report⟩

inductive Blames {ε : Type} : List (Requirement ε) → Checked ε → Prop
  | first {requirement : Requirement ε} {rest : List (Requirement ε)}
      (violated : ¬requirement.met) : Blames (requirement :: rest) requirement.failure
  | later {requirement : Requirement ε} {rest : List (Requirement ε)} {failure : Checked ε}
      (met : requirement.met) (blames : Blames rest failure) : Blames (requirement :: rest) failure

def Judged {ε α : Type} (requirements : List (Requirement ε))
    (outcome : Checked (Except ε α)) : Prop :=
  (∃ value, outcome = .ok (.ok value) ∧ ∀ requirement ∈ requirements, requirement.met) ∨
    ∃ failure, outcome = failure.map .error ∧ Blames requirements failure

namespace Blames

variable {ε δ : Type} {requirement : Requirement ε} {first second : List (Requirement ε)}
  {failure : Checked ε}

theorem not_nil : ¬Blames [] failure := nofun

theorem cons_iff : Blames (requirement :: first) failure ↔
    ¬requirement.met ∧ requirement.failure = failure ∨
      requirement.met ∧ Blames first failure := by
  constructor
  · intro blames
    cases blames with
    | first violated => exact .inl ⟨violated, rfl⟩
    | later met rest => exact .inr ⟨met, rest⟩
  · rintro (⟨violated, rfl⟩ | ⟨met, rest⟩)
    · exact .first violated
    · exact .later met rest

theorem append_iff : Blames (first ++ second) failure ↔
    Blames first failure ∨ (∀ requirement ∈ first, requirement.met) ∧ Blames second failure := by
  induction first with
  | nil => simp [not_nil]
  | cons requirement rest ih =>
      rw [List.cons_append, cons_iff, cons_iff, ih, List.forall_mem_cons]
      by_cases met : requirement.met <;> simp [met]

theorem reported (report : ε → δ) (blames : Blames first failure) :
    Blames (first.map (Requirement.reported report)) (failure.map report) := by
  induction blames with
  | @first requirement rest violated =>
      have same : ¬(requirement.reported report).met := violated
      exact .first same
  | @later requirement rest failure met _ ih =>
      have same : (requirement.reported report).met := met
      exact .later same ih

theorem unique {other : Checked ε} (left : Blames first failure) (right : Blames first other) :
    failure = other := by
  induction left with
  | first violated =>
      cases right with
      | first _ => rfl
      | later met _ => exact absurd met violated
  | later met _ ih =>
      cases right with
      | first violated => exact absurd met violated
      | later _ right => exact ih right

theorem exists_violated (blames : Blames first failure) :
    ∃ requirement ∈ first, ¬requirement.met ∧ requirement.failure = failure := by
  induction blames with
  | first violated => exact ⟨_, List.mem_cons_self, violated, rfl⟩
  | later _ _ ih =>
      obtain ⟨requirement, member, violated, same⟩ := ih
      exact ⟨requirement, List.mem_cons_of_mem _ member, violated, same⟩

end Blames

namespace Judged

variable {ε δ α β : Type} {requirement : Requirement ε} {first second : List (Requirement ε)}
  {outcome : Checked (Except ε α)}

theorem passed (value : α) : Judged ([] : List (Requirement ε)) (.ok (.ok value)) := by
  refine .inl ⟨value, rfl, ?_⟩
  intro requirement member
  cases member

theorem check (refused : ¬requirement.met → outcome = requirement.failure.map .error)
    (rest : requirement.met → Judged first outcome) : Judged (requirement :: first) outcome := by
  by_cases met : requirement.met
  · rcases rest met with ⟨value, passed, others⟩ | ⟨failure, failed, blames⟩
    · exact .inl ⟨value, passed, List.forall_mem_cons.2 ⟨met, others⟩⟩
    · exact .inr ⟨failure, failed, .later met blames⟩
  · exact .inr ⟨requirement.failure, refused met, .first met⟩

theorem after (met : ∀ requirement ∈ first, requirement.met) (judged : Judged second outcome) :
    Judged (first ++ second) outcome := by
  rcases judged with ⟨value, passed, others⟩ | ⟨failure, failed, blames⟩
  · exact .inl ⟨value, passed, List.forall_mem_append.2 ⟨met, others⟩⟩
  · exact .inr ⟨failure, failed, Blames.append_iff.2 (.inr ⟨met, blames⟩)⟩

theorem bind {report : ε → δ} {others : List (Requirement δ)}
    {next : Except ε α → Checked (Except δ β)} (judged : Judged first outcome)
    (refused : ∀ error, next (.error error) = .ok (.error (report error)))
    (onward : ∀ value, Judged others (next (.ok value))) :
    Judged (first.map (Requirement.reported report) ++ others) (outcome >>= next) := by
  rcases judged with ⟨value, rfl, met⟩ | ⟨failure, rfl, blames⟩
  · exact .after (List.forall_mem_map.2 met) (onward value)
  · refine .inr ⟨failure.map report, ?_, Blames.append_iff.2 (.inl (blames.reported report))⟩
    cases failure with
    | ok error => exact refused error
    | error fault => rfl

end Judged

namespace BitTiming

structure Shaped (timing : BitTiming) (limits : TimingLimits) : Prop where
  jumpWidth : timing.jumpWidth.toNat ∈ limits.jumpWidth
  propagation : timing.propagation.toNat ∈ limits.propagation
  phase1 : timing.phase1.toNat ∈ limits.phase1
  phase2 : timing.phase2.toNat ∈ limits.phase2
  bitTime : timing.quanta ∈ limits.bitTime

def Divides (timing : BitTiming) (clock : UInt32) (prescaler : Nat) : Prop :=
  prescaler * timing.quanta * timing.bitRate.toNat = clock.toNat

structure Realizable (timing : BitTiming) (clock : UInt32) (limits : TimingLimits) : Prop
    extends Shaped timing limits where
  rated : timing.bitRate ≠ 0
  divides : ∃ prescaler ∈ limits.prescaler, timing.Divides clock prescaler

/-- The rate at which quanta follow each other is a number of 32 bits. -/
def Narrow (timing : BitTiming) : Prop := timing.bitRate.toNat * timing.quanta < UInt32.size

def lengths (timing : BitTiming) (limits : TimingLimits) : List (Requirement TimingError) :=
  [⟨timing.jumpWidth.toNat ∈ limits.jumpWidth, .ok (.outOfRange .jumpWidth limits.jumpWidth)⟩,
    ⟨timing.propagation.toNat ∈ limits.propagation,
      .ok (.outOfRange .propagation limits.propagation)⟩,
    ⟨timing.phase1.toNat ∈ limits.phase1, .ok (.outOfRange .phase1 limits.phase1)⟩,
    ⟨timing.phase2.toNat ∈ limits.phase2, .ok (.outOfRange .phase2 limits.phase2)⟩,
    ⟨timing.quanta ∈ limits.bitTime, .ok (.outOfRange .bitTime limits.bitTime)⟩]

def divisions (timing : BitTiming) (clock : UInt32) (limits : TimingLimits) :
    List (Requirement TimingError) :=
  [⟨timing.Narrow, .error .overflow⟩,
    ⟨timing.bitRate ≠ 0 ∧ ∃ prescaler, timing.Divides clock prescaler,
      .ok (.noPrescaler clock timing.bitRate timing.quanta)⟩,
    ⟨∃ prescaler ∈ limits.prescaler, timing.Divides clock prescaler,
      .ok (.outOfRange .prescaler limits.prescaler)⟩]

def requirements (timing : BitTiming) (clock : UInt32) (limits : TimingLimits) :
    List (Requirement TimingError) :=
  timing.lengths limits ++ timing.divisions clock limits

theorem quantumRate_eq_zero_iff (timing : BitTiming) :
    timing.bitRate.toNat * timing.quanta = 0 ↔ timing.bitRate = 0 := by
  have positive : timing.quanta ≠ 0 := by
    rw [quanta]
    omega
  simp only [Nat.mul_eq_zero, positive, or_false]
  exact @UInt32.toNat_inj timing.bitRate 0

theorem divides_iff {timing : BitTiming} {clock : UInt32} (rated : timing.bitRate ≠ 0)
    (prescaler : Nat) : timing.Divides clock prescaler ↔
      clock.toNat % (timing.bitRate.toNat * timing.quanta) = 0 ∧
        clock.toNat / (timing.bitRate.toNat * timing.quanta) = prescaler := by
  have positive : 0 < timing.bitRate.toNat * timing.quanta :=
    Nat.pos_of_ne_zero (mt timing.quantumRate_eq_zero_iff.1 rated)
  rw [Divides, Nat.mul_assoc, Nat.mul_comm timing.quanta]
  constructor
  · intro exactly
    rw [← exactly]
    exact ⟨Nat.mul_mod_left _ _, Nat.mul_div_cancel _ positive⟩
  · rintro ⟨whole, rfl⟩
    exact Nat.div_mul_cancel (Nat.dvd_of_mod_eq_zero whole)

theorem Divides.narrow {timing : BitTiming} {clock : UInt32} {prescaler : Nat}
    (divides : timing.Divides clock prescaler) (positive : 1 ≤ prescaler) : timing.Narrow := by
  have small := clock.toNat_lt
  rw [← divides, Nat.mul_assoc, Nat.mul_comm timing.quanta] at small
  exact Nat.lt_of_le_of_lt (Nat.le_mul_of_pos_left _ positive) small

theorem lengths_met_iff {timing : BitTiming} {limits : TimingLimits} :
    (∀ requirement ∈ timing.lengths limits, requirement.met) ↔ timing.Shaped limits := by
  simp only [lengths, List.forall_mem_cons, List.not_mem_nil, false_implies, implies_true, and_true]
  constructor
  · rintro ⟨jump, propagation, first, second, whole⟩
    exact ⟨jump, propagation, first, second, whole⟩
  · rintro ⟨jump, propagation, first, second, whole⟩
    exact ⟨jump, propagation, first, second, whole⟩

theorem shaped_iff {timing : BitTiming} {limits : TimingLimits} :
    timing.Shaped limits ↔ timing.violation? limits = none := by
  rw [← lengths_met_iff, violation?_eq_none_iff]
  simp [lengths, Span.mem_iff]

theorem requirements_met_iff {timing : BitTiming} {clock : UInt32} {limits : TimingLimits}
    (positive : 1 ≤ limits.prescaler.first) :
    (∀ requirement ∈ timing.requirements clock limits, requirement.met) ↔
      timing.Realizable clock limits := by
  rw [requirements, List.forall_mem_append, lengths_met_iff]
  simp only [divisions, List.forall_mem_cons, List.not_mem_nil, false_implies, implies_true,
    and_true]
  constructor
  · rintro ⟨shaped, -, ⟨rated, -⟩, divides⟩
    exact ⟨shaped, rated, divides⟩
  · rintro ⟨shaped, rated, prescaler, within, divides⟩
    have narrow := divides.narrow (Nat.le_trans positive within.1)
    exact ⟨shaped, narrow, ⟨rated, prescaler, divides⟩, prescaler, within, divides⟩

def require : TimingPart × Nat × Span → Requirement TimingError
  | (part, length, allowed) => ⟨length ∈ allowed, .ok (.outOfRange part allowed)⟩

theorem lengths_eq (timing : BitTiming) (limits : TimingLimits) :
    timing.lengths limits = (timing.segments limits).map require := rfl

theorem blames_find? {segments : List (TimingPart × Nat × Span)}
    {segment : TimingPart × Nat × Span}
    (found : segments.find? (fun (_, length, allowed) => !allowed.contains length) = some segment) :
    Blames (segments.map require) (require segment).failure := by
  induction segments with
  | nil => cases found
  | cons first rest ih =>
      by_cases inside : (require first).met
      · rw [List.find?_cons_of_neg (by simp [Span.mem_iff.1 inside])] at found
        exact .later inside (ih found)
      · rw [List.find?_cons_of_pos (by simpa [require, Span.mem_iff] using inside)] at found
        cases found
        exact .first inside

theorem blames_violation? {timing : BitTiming} {limits : TimingLimits} {error : TimingError}
    (violated : timing.violation? limits = some error) :
    Blames (timing.lengths limits) (.ok error) := by
  obtain ⟨segment, found, rfl⟩ := Option.map_eq_some_iff.1 violated
  rw [lengths_eq]
  exact blames_find? found

/-- The prescaler is found if every requirement is met, and else the first that is not is reported. -/
theorem judged_prescaler (timing : BitTiming) (clock : UInt32) (limits : TimingLimits) :
    Judged (timing.requirements clock limits) (timing.prescaler clock limits) := by
  rw [prescaler]
  cases violated : timing.violation? limits with
  | some error =>
      exact .inr ⟨.ok error, rfl, Blames.append_iff.2 (.inl (blames_violation? violated))⟩
  | none =>
      refine .after (lengths_met_iff.2 (shaped_iff.2 violated)) ?_
      dsimp only
      refine .check (fun wide => if_pos (Nat.not_lt.1 wide)) fun narrow => ?_
      rw [if_neg (Nat.not_le.2 narrow)]
      refine .check (fun indivisible => if_pos ?_) ?_
      · refine Decidable.byContradiction fun whole => ?_
        obtain ⟨positive, divisible⟩ := not_or.1 whole
        have rated := mt timing.quantumRate_eq_zero_iff.2 positive
        exact indivisible ⟨rated, _, (divides_iff rated _).2 ⟨Decidable.not_not.1 divisible, rfl⟩⟩
      · rintro ⟨rated, prescaler, divides⟩
        obtain ⟨whole, rfl⟩ := (divides_iff rated _).1 divides
        have positive := mt timing.quantumRate_eq_zero_iff.1 rated
        rw [if_neg (not_or.2 ⟨positive, Decidable.not_not.2 whole⟩)]
        refine .check (fun outside => if_neg fun inside => ?_) ?_
        · exact outside ⟨_, Span.mem_iff.2 inside, divides⟩
        · rintro ⟨prescaler, inside, same⟩
          obtain ⟨-, rfl⟩ := (divides_iff rated _).1 same
          rw [if_pos (Span.mem_iff.1 inside)]
          exact .passed _

end BitTiming

end BufferedCan
