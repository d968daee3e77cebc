import BufferedCan.Program.Checked

/-!
Bit timing. A bit lasts a whole number of time quanta, and a quantum lasts a whole number of clock
cycles, the prescaler. `BitTiming.prescaler` finds the prescaler that gives a requested bit rate
exactly, or says which limit stands in the way.
-/

namespace BufferedCan

structure Span where
  first : Nat
  last : Nat
  deriving DecidableEq, Repr

def Span.contains (span : Span) (value : Nat) : Bool :=
  span.first ≤ value && value ≤ span.last

theorem Span.contains_iff (span : Span) (value : Nat) :
    span.contains value = true ↔ span.first ≤ value ∧ value ≤ span.last := by
  simp [contains]

/-- The lengths of the segments of a bit in time quanta, and the bit rate in hertz. -/
structure BitTiming where
  bitRate : UInt32
  jumpWidth : UInt8 := 4
  propagation : UInt8 := 7
  phase1 : UInt8 := 4
  phase2 : UInt8 := 4
  deriving DecidableEq, Repr

inductive TimingPart
  | jumpWidth
  | propagation
  | phase1
  | phase2
  | bitTime
  | prescaler
  deriving DecidableEq, Repr

structure TimingLimits where
  jumpWidth : Span
  propagation : Span
  phase1 : Span
  phase2 : Span
  bitTime : Span
  prescaler : Span
  deriving DecidableEq, Repr

inductive TimingError
  | outOfRange (part : TimingPart) (allowed : Span)
  | noPrescaler (clock bitRate : UInt32) (quanta : Nat)
  deriving DecidableEq, Repr

namespace TimingLimits

def classic : TimingLimits where
  jumpWidth := ⟨1, 4⟩
  propagation := ⟨1, 8⟩
  phase1 := ⟨1, 8⟩
  phase2 := ⟨2, 8⟩
  bitTime := ⟨8, 25⟩
  prescaler := ⟨1, 256⟩

def nominal : TimingLimits where
  jumpWidth := ⟨1, 32⟩
  propagation := ⟨1, 64⟩
  phase1 := ⟨1, 32⟩
  phase2 := ⟨2, 32⟩
  bitTime := ⟨8, 129⟩
  prescaler := ⟨1, 1024⟩

def dataPhase : TimingLimits where
  jumpWidth := ⟨1, 8⟩
  propagation := ⟨0, 31⟩
  phase1 := ⟨1, 8⟩
  phase2 := ⟨2, 8⟩
  bitTime := ⟨5, 48⟩
  prescaler := ⟨1, 1024⟩

end TimingLimits

namespace BitTiming

def quanta (timing : BitTiming) : Nat :=
  1 + timing.propagation.toNat + timing.phase1.toNat + timing.phase2.toNat

def segments (timing : BitTiming) (limits : TimingLimits) : List (TimingPart × Nat × Span) :=
  [(.jumpWidth, timing.jumpWidth.toNat, limits.jumpWidth),
    (.propagation, timing.propagation.toNat, limits.propagation),
    (.phase1, timing.phase1.toNat, limits.phase1),
    (.phase2, timing.phase2.toNat, limits.phase2),
    (.bitTime, timing.quanta, limits.bitTime)]

def violation? (timing : BitTiming) (limits : TimingLimits) : Option TimingError :=
  ((timing.segments limits).find? fun (_, length, allowed) => !allowed.contains length).map
    fun (part, _, allowed) => .outOfRange part allowed

/-- The prescaler for a clock in hertz. The rate at which quanta follow each other is computed in 32
bits. -/
def prescaler (timing : BitTiming) (clock : UInt32) (limits : TimingLimits) :
    Checked (Except TimingError Nat) :=
  match timing.violation? limits with
  | some error => .ok (.error error)
  | none =>
    let quantumRate := timing.bitRate.toNat * timing.quanta
    if UInt32.size ≤ quantumRate then .error .overflow
    else if quantumRate = 0 ∨ clock.toNat % quantumRate ≠ 0 then
      .ok (.error (.noPrescaler clock timing.bitRate timing.quanta))
    else if limits.prescaler.contains (clock.toNat / quantumRate) then
      .ok (.ok (clock.toNat / quantumRate))
    else .ok (.error (.outOfRange .prescaler limits.prescaler))

theorem violation?_eq_none_iff (timing : BitTiming) (limits : TimingLimits) :
    timing.violation? limits = none ↔
      limits.jumpWidth.contains timing.jumpWidth.toNat ∧
      limits.propagation.contains timing.propagation.toNat ∧
      limits.phase1.contains timing.phase1.toNat ∧
      limits.phase2.contains timing.phase2.toNat ∧
      limits.bitTime.contains timing.quanta := by
  simp [violation?, segments]

theorem prescaler_exact {timing : BitTiming} {clock : UInt32} {limits : TimingLimits} {found : Nat}
    (accepted : timing.prescaler clock limits = .ok (.ok found)) :
    found * timing.quanta * timing.bitRate.toNat = clock.toNat ∧
      limits.prescaler.contains found = true := by
  simp only [prescaler] at accepted
  split at accepted
  · simp at accepted
  · split at accepted
    · simp at accepted
    · split at accepted
      · simp at accepted
      · next divides =>
          split at accepted
          · next within =>
              simp only [Except.ok.injEq] at accepted
              subst accepted
              have whole : clock.toNat % (timing.bitRate.toNat * timing.quanta) = 0 :=
                Decidable.byContradiction fun rest => divides (.inr rest)
              refine ⟨?_, within⟩
              rw [Nat.mul_assoc, Nat.mul_comm timing.quanta]
              exact Nat.div_mul_cancel (Nat.dvd_of_mod_eq_zero whole)
          · simp at accepted

end BitTiming

end BufferedCan
