import BufferedCan.Hardware.Station

/-!
Controllers on one wire. Transfers wait in the order in which they were requested; sending one lets
the stations hear it and then completes it at the sender.
-/

namespace BufferedCan

structure Wire where
  stations : List Station
  pending : List Transfer
  deriving DecidableEq

namespace Wire

def empty : Wire := ⟨[], []⟩

def attach (wire : Wire) : Wire := { wire with stations := wire.stations ++ [.reset] }

def modify (wire : Wire) (node : Nat) (change : Station → Station) : Wire :=
  { wire with stations := wire.stations.modify node change }

def stall (wire : Wire) (node : Nat) : Wire := wire.modify node .stall

def ramWord? (offset : Nat) : Option Nat :=
  if ramOffset 0 ≤ offset ∧ offset < ramOffset ramWords then some ((offset - ramOffset 0) / 4)
  else none

def request? (wire : Wire) (node offset : Nat) : Option Transfer := do
  let word ← ramWord? offset
  let station ← wire.stations[node]?
  station.request? node word

def write (wire : Wire) (node offset : Nat) (value : UInt32) : Wire :=
  let written := wire.modify node fun station => station.write offset value
  { written with pending := written.pending ++ (written.request? node offset).toList }

def read (wire : Wire) (node offset : Nat) : UInt32 × Wire :=
  match wire.stations[node]? with
  | none => (0, wire)
  | some station =>
    match station.read offset with
    | (value, after) => (value, { wire with stations := wire.stations.set node after })

def access (node : Nat) : Handler registers Wire
  | .read offset, wire => wire.read node offset
  | .write offset value, wire => ((), wire.write node offset value)

/-- A sender in loopback mode reaches itself alone. Any other reaches everybody, and itself unless
its self reception is off. -/
def reaches (loopback own : Bool) (station : Station) : Bool :=
  if loopback then own
  else !own || !Mcr.srxdis.isSet (station.memory.get .mcr)

def broadcast (transfer : Transfer) (loopback : Bool) :
    (index : Nat) → List Station → Checked Unit × List Station
  | _, [] => (.ok (), [])
  | index, station :: rest =>
    if reaches loopback (index == transfer.sender) station then
      match station.hear transfer with
      | (.error fault, after) => (.error fault, after :: rest)
      | (.ok (), after) =>
        match broadcast transfer loopback (index + 1) rest with
        | (outcome, others) => (outcome, after :: others)
    else
      match broadcast transfer loopback (index + 1) rest with
      | (outcome, others) => (outcome, station :: others)

/-- Put one transfer on the wire. One whose sender takes no part in the bus gets lost. -/
def send (wire : Wire) (transfer : Transfer) : Checked Unit × Wire :=
  match wire.stations[transfer.sender]? with
  | none => (.ok (), wire)
  | some sender =>
    if sender.running then
      let loopback := Ctrl1.lpb.isSet (sender.memory.get .ctrl1)
      match broadcast transfer loopback 0 wire.stations with
      | (.error fault, stations) => (.error fault, { wire with stations := stations })
      | (.ok (), stations) =>
        (.ok (), { wire with stations := stations }.modify transfer.sender fun station =>
          station.complete transfer.buffer)
    else (.ok (), wire)

def deliverNext (wire : Wire) : Checked Bool × Wire :=
  match wire.pending with
  | [] => (.ok false, wire)
  | transfer :: rest =>
    match { wire with pending := rest }.send transfer with
    | (.error fault, after) => (.error fault, after)
    | (.ok (), after) => (.ok true, after)

def deliverMany : (count : Nat) → Wire → Checked Unit × Wire
  | 0, wire => (.ok (), wire)
  | count + 1, wire =>
    match wire.deliverNext with
    | (.error fault, after) => (.error fault, after)
    | (.ok _, after) => deliverMany count after

def deliver (wire : Wire) : Checked Nat × Wire :=
  match deliverMany wire.pending.length wire with
  | (.error fault, after) => (.error fault, after)
  | (.ok (), after) => (.ok wire.pending.length, after)

theorem pending_send (wire : Wire) (transfer : Transfer) :
    (wire.send transfer).2.pending = wire.pending := by
  unfold send
  split
  · rfl
  · split
    · dsimp only
      split <;> rfl
    · rfl

theorem pending_deliverNext (wire : Wire) : wire.deliverNext.2.pending = wire.pending.tail := by
  unfold deliverNext
  split
  · next none => simp [none]
  · next transfer rest waiting =>
      have kept := pending_send { wire with pending := rest } transfer
      split <;> next sent => simp [sent] at kept; simp [kept, waiting]

end Wire

end BufferedCan
