import BufferedCan.Proofs.Controller.Traffic
import BufferedCan.Proofs.Hardware.Delivery

/-! Controllers on one wire, each with the software that holds it. An action is one call of the software
of one node, or the delivery of one transfer. Whoever fails to set up a controller loses it. -/

namespace BufferedCan

inductive Seat
  | gone
  | frozen (frozen : Frozen)
  | running (running : Running)

inductive Action
  | attach (station : Station) (clock : Clock) (bitRate : UInt32)
  | adjust (node : Nat) (settings : Settings)
  | finalize (node : Nat)
  | configure (node : Nat)
  | transmit (node : Nat) (draft : Draft)
  | send (node : Nat) (id : Identifier) (payload : List UInt8)
  | receive (node : Nat)
  | status (node : Nat)
  | timeStamp (node : Nat)
  | deliverNext
  /-- From now on the controller acknowledges no mode change. -/
  | stall (node : Nat)

inductive Reply (μ : Type)
  | done
  | badState
  | fault (fault : Fault)
  | wouldBlock
  | setupFailed (error : SetupError)
  | transmitFailed (error : TransmitError)
  | message (message : μ)
  | status (protocol counters : Report)
  | time (value : Nat)
  | delivered (any : Bool)
  deriving DecidableEq

namespace Reply

variable {μ ν : Type}

def map (change : μ → ν) : Reply μ → Reply ν
  | done => done
  | badState => badState
  | fault problem => fault problem
  | wouldBlock => wouldBlock
  | setupFailed error => setupFailed error
  | transmitFailed error => transmitFailed error
  | message content => message (change content)
  | status protocol counters => status protocol counters
  | time value => time value
  | delivered any => delivered any

def ofTransmit : Except (Refusal TransmitError) Unit → Reply μ
  | .ok () => done
  | .error .wouldBlock => wouldBlock
  | .error (.failed error) => transmitFailed error

def ofReceive : Option μ → Reply μ
  | none => wouldBlock
  | some content => message content

def ofStatus : Report × Report → Reply μ
  | (protocol, counters) => status protocol counters

def ofDelivery : Checked Bool → Reply μ
  | .ok any => delivered any
  | .error problem => fault problem

end Reply

def Running.statuses : Program registers (Report × Report) := do
  return (← Running.protocolStatus, ← Running.errorCounters)

theorem Running.run_statuses (node : Nat) (station : Station) (waiting : List Transfer) :
    Running.statuses.run (Station.device node) (station, waiting) =
      ((.protocolStatus (station.memory.get .esr1), .errorCounters (station.memory.get .ecr)),
        station, waiting) := by
  rw [Running.statuses, Program.run_bind, Running.run_protocolStatus, Program.run_bind,
    Running.run_errorCounters]
  rfl

structure System where
  wire : Wire
  seats : List Seat

namespace System

def empty : System := ⟨.empty, []⟩

def seat (system : System) (node : Nat) : Seat := system.seats.getD node .gone

def hold (system : System) (node : Nat) (seat : Seat) : System :=
  { system with seats := system.seats.set node seat }

def perform {α : Type} (system : System) (node : Nat) (program : Program registers α) :
    α × System :=
  match program.run (Wire.access node) system.wire with
  | (value, wire) => (value, { system with wire := wire })

def settle (system : System) (node : Nat) : Except SetupError Seat → Reply Message × System
  | .ok seat => (.done, system.hold node seat)
  | .error error => (.setupFailed error, system.hold node .gone)

def join (system : System) (station : Station) : System :=
  ⟨{ system.wire with stations := system.wire.stations ++ [station] }, system.seats ++ [.gone]⟩

def attach (system : System) (station : Station) (clock : Clock) (bitRate : UInt32) :
    Reply Message × System :=
  let node := system.wire.stations.length
  match (system.join station).perform node (Frozen.attach clock bitRate).run with
  | (outcome, after) => after.settle node (outcome.map .frozen)

def finalize (system : System) (node : Nat) (frozen : Frozen) : Reply Message × System :=
  match system.perform node frozen.start with
  | (.error fault, after) => (.fault fault, after.hold node .gone)
  | (.ok outcome, after) => after.settle node (outcome.map .running)

def configure (system : System) (node : Nat) (running : Running) : Reply Message × System :=
  match system.perform node running.freeze.run with
  | (outcome, after) => after.settle node (outcome.map .frozen)

def call {α : Type} (system : System) (node : Nat) (answer : α → Reply Message)
    (program : Running → Program registers α) : Reply Message × System :=
  match system.seat node with
  | .running running =>
    match system.perform node (program running) with
    | (value, after) => (answer value, after)
  | _ => (.badState, system)

def step (system : System) : Action → Reply Message × System
  | .attach station clock bitRate => system.attach station clock bitRate
  | .adjust node settings =>
    match system.seat node with
    | .frozen frozen => (.done, system.hold node (.frozen { frozen with settings := settings }))
    | _ => (.badState, system)
  | .finalize node =>
    match system.seat node with
    | .frozen frozen => system.finalize node frozen
    | _ => (.badState, system)
  | .configure node =>
    match system.seat node with
    | .running running => system.configure node running
    | _ => (.badState, system)
  | .transmit node draft => system.call node .ofTransmit fun running => running.transmitDraft draft
  | .send node id payload =>
    system.call node .ofTransmit fun running => running.transmitPayload id payload
  | .receive node => system.call node .ofReceive Running.receive
  | .status node => system.call node .ofStatus fun _ => Running.statuses
  | .timeStamp node => system.call node .time fun _ => Running.timeStamp
  | .deliverNext =>
    match system.wire.deliverNext with
    | (outcome, wire) => (.ofDelivery outcome, { system with wire := wire })
  | .stall node => (.done, { system with wire := system.wire.stall node })

def run (system : System) : List Action → List (Reply Message) × System
  | [] => ([], system)
  | action :: rest =>
    let (reply, after) := system.step action
    let (replies, last) := after.run rest
    (reply :: replies, last)

def replies (system : System) (actions : List Action) : List (Reply Message) :=
  (system.run actions).1

def after (system : System) (actions : List Action) : System := (system.run actions).2

theorem after_nil (system : System) : system.after [] = system := rfl

theorem after_singleton (system : System) (action : Action) :
    system.after [action] = (system.step action).2 := rfl

theorem after_append (system : System) (first second : List Action) :
    system.after (first ++ second) = (system.after first).after second := by
  induction first generalizing system with
  | nil => rfl
  | cons action rest ih => exact ih (system.step action).2

theorem seat_hold {system : System} {node : Nat} (bound : node < system.seats.length) (seat : Seat)
    (other : Nat) :
    (system.hold node seat).seat other = if node = other then seat else system.seat other := by
  simp only [System.seat, hold, List.getD_eq_getElem?_getD]
  by_cases same : node = other
  · subst same
    rw [List.getElem?_set_self bound, Option.getD_some, if_pos rfl]
  · rw [List.getElem?_set_ne same, if_neg same]

theorem perform_eq {system : System} {node : Nat} {station : Station} {α : Type}
    (present : system.wire.stations[node]? = some station) (program : Program registers α) :
    system.perform node program =
      ((program.run (Station.device node) (station, system.wire.pending)).1,
        ⟨system.wire.replace node
          (program.run (Station.device node) (station, system.wire.pending)).2, system.seats⟩) := by
  rw [perform, Wire.run_access program present]

end System

end BufferedCan
