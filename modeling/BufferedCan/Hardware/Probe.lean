import BufferedCan.Controller.Access

/-!
A probe sits between a program and the registers of a device. It records every access, and it can
falsify what is read, to imitate hardware that misbehaves.
-/

namespace BufferedCan

/-- Falsify reads of one offset: after `skip` honest ones, the next `reads` lose the bits outside
`keep` and gain those in `raise`. -/
structure ReadFault where
  offset : Nat
  keep : UInt32
  raise : UInt32
  skip : Nat
  reads : Nat
  seen : Nat := 0
  deriving DecidableEq, Repr

namespace ReadFault

def active (fault : ReadFault) : Bool :=
  fault.skip ≤ fault.seen && fault.seen < fault.skip + fault.reads

def apply (fault : ReadFault) (offset : Nat) (value : UInt32) : UInt32 × ReadFault :=
  if fault.offset = offset then
    (if fault.active then (value &&& fault.keep) ||| fault.raise else value,
      { fault with seen := fault.seen + 1 })
  else (value, fault)

end ReadFault

inductive Direction
  | read
  | write
  deriving DecidableEq, Repr

structure LogEntry where
  node : Nat
  direction : Direction
  offset : Nat
  value : UInt32
  count : Nat
  deriving DecidableEq, Repr

structure Probe where
  faults : List (Nat × ReadFault)
  log : List LogEntry
  deriving DecidableEq, Repr

namespace Probe

def fresh : Probe := ⟨[], []⟩

def setFaults (probe : Probe) (node : Nat) (faults : List ReadFault) : Probe :=
  { probe with faults := probe.faults.filter (fun entry => entry.1 != node) ++
      faults.map fun fault => (node, fault) }

def falsify (node offset : Nat) : List (Nat × ReadFault) → UInt32 → UInt32 × List (Nat × ReadFault)
  | [], value => (value, [])
  | (owner, fault) :: rest, value =>
    if owner = node then
      match fault.apply offset value with
      | (changed, after) =>
        match falsify node offset rest changed with
        | (final, others) => (final, (owner, after) :: others)
    else
      match falsify node offset rest value with
      | (final, others) => (final, (owner, fault) :: others)

def note (node : Nat) (direction : Direction) (offset : Nat) (value : UInt32) :
    List LogEntry → List LogEntry
  | [] => [⟨node, direction, offset, value, 1⟩]
  | last :: rest =>
    if last.node = node ∧ last.direction = direction ∧ last.offset = offset ∧ last.value = value
    then { last with count := last.count + 1 } :: rest
    else ⟨node, direction, offset, value, 1⟩ :: last :: rest

def watch {σ : Type} (node : Nat) (device : Handler registers σ) : Handler registers (σ × Probe)
  | .read offset, (state, probe) =>
    match device (.read offset) state with
    | (honest, after) =>
      match falsify node offset probe.faults honest with
      | (value, faults) => (value, (after, ⟨faults, note node .read offset value probe.log⟩))
  | .write offset value, (state, probe) =>
    match device (.write offset value) state with
    | (_, after) =>
      ((), (after, { probe with log := note node .write offset value probe.log }))

def record (probe : Probe) : List LogEntry := probe.log.reverse

def clearLog (probe : Probe) : Probe := { probe with log := [] }

theorem run_watch {α σ : Type} (node : Nat) (device : Handler registers σ)
    (program : Program registers α) (state : σ) (log : List LogEntry) :
    ∃ after, program.run (watch node device) (state, ⟨[], log⟩) =
      ((program.run device state).1, ((program.run device state).2, ⟨[], after⟩)) := by
  induction program generalizing state log with
  | done value => exact ⟨log, rfl⟩
  | ask call next ih =>
      cases call with
      | read offset => exact ih _ _ _
      | write offset value => exact ih _ _ _

end Probe

end BufferedCan
