import BufferedCan.Bench.Block
import BufferedCan.Cipher.Aes
import BufferedCan.Cipher.Script
import BufferedCan.Controller.Status
import BufferedCan.Exchange.CommandLink
import BufferedCan.Hardware.Wire

/-!
A bench for whole networks: controllers on one wire, each with software that holds it, tried out step
by step. Every step is answered with its result, the words that it changed on any controller, the
number of transfers that wait, and the record of its accesses.
-/

namespace BufferedCan

inductive Holder
  | gone
  | frozen (frozen : Frozen)
  | running (running : Running)
  | player (player : Player) (lamp : Lamp)
  | link (link : Link) (device : WindowDevice)

structure Adjustment where
  mode : Option Mode
  nominal : Option BitTiming
  loopback : Option Bool
  receiveId : Option Nat
  transmit : Option Nat
  receive : Option Nat
  pollLimit : Option Nat

inductive NodeStep
  | peek (offset : Nat)
  | ram (word : Nat)
  | timerReads
  | stall
  | write (offset : Nat) (value : UInt32)
  | setFaults (faults : List ReadFault)
  | adjust (changes : Adjustment)
  | finalize
  | startPlayer (role : PingPong.Role) (variant : PingPong.Variant)
  | startLink (role : CommandLink.Role)
  | showSettings
  | raw (offset : Nat)
  | freeze
  | release
  | transmit (frame : FrameSpec)
  | send (id : Nat) (extended : Bool) (payload : List UInt8)
  | receive
  | echo
  | status
  | timeStamp
  | becomePlayer (role : PingPong.Role) (failing : List Nat)
  | becomeLink (role : CommandLink.Role) (device : WindowDevice) (stored : List (Nat × UInt32))
      (key : KeySlot) (pollLimit : Nat)
  | kickOff
  | poll
  | free
  | linkSend (command : LedCommand)
  | linkReceive
  | setEncryption (on : Bool)
  | toggleEncryption
  | hang

inductive BenchStep
  | attach (clock : Clock) (bitRate : UInt32) (preset : List (Nat × UInt32)) (stalled : Bool)
      (faults : List ReadFault)
  | deliver
  | deliverNext
  /-- Let two nodes take turns, `count` each: everything is delivered and the node polls. -/
  | rounds (first second count : Nat)
  | node (number : Nat) (step : NodeStep)

structure RoundsReport where
  polls : Nat
  received : UInt32 × UInt32
  error : Option (PlayerError Nat)

inductive BenchReply
  | done
  | badState
  | fault (fault : Fault)
  | invalidId
  | wouldBlock
  | number (value : Nat)
  | flag (value : Bool)
  | flags (first second : Bool)
  | setupFailed (error : SetupError)
  | transmitFailed (error : TransmitError)
  | settings (settings : Settings)
  | released (node : Nat) (clock : Clock)
  | message (message : Message)
  | status (protocol counters : Report)
  | rounds (report : RoundsReport)
  | started (result : Except (Refusal TransmitError) Unit)
  | polled (result : Except (PlayerError Nat) Bool) (received : UInt32)
  | freedPlayer (lamp : Lamp)
  | freedLink (commands : Nat)
  | linkSent (result : Except (Refusal LinkError) Unit) (commands : Nat)
  | linkReceived (reception : Option Reception) (commands : Nat)

structure Bench where
  wire : Wire
  probe : Probe
  holders : List Holder

structure BenchAnswer where
  reply : BenchReply
  changes : List (Nat × Nat × UInt32)
  pending : Nat
  log : List LogEntry

namespace BenchReply

def stops : BenchReply → Bool
  | fault _ => true
  | _ => false

def ofTransmit : Except (Refusal TransmitError) Unit → BenchReply
  | .ok () => done
  | .error .wouldBlock => wouldBlock
  | .error (.failed error) => transmitFailed error

end BenchReply

namespace Wire

/-- The words that differ between the controllers of two wires; one that is new counts as zero
before. -/
def changes (before after : Wire) : List (Nat × Nat × UInt32) :=
  (after.stations.zipIdx).flatMap fun (station, node) =>
    let old := (before.stations[node]?.map Station.memory).getD Memory.zero
    (old.changes station.memory).map fun (index, value) => (node, 4 * index, value)

def preset (node : Nat) : List (Nat × UInt32) → Wire → Checked Unit × Wire
  | [], wire => (.ok (), wire)
  | (offset, value) :: rest, wire =>
    if Memory.contains offset then preset node rest (wire.write node offset value)
    else (.error .outOfBounds, wire)

def peek (wire : Wire) (node offset : Nat) : Checked UInt32 :=
  match wire.stations[node]? with
  | none => .error .outOfBounds
  | some station =>
    if Memory.contains offset then .ok (station.memory.read offset) else .error .outOfBounds

end Wire

namespace Settings

/-- The settings with changes made in order. An identifier that is too large is refused, and nothing
after it is changed. -/
def adjust (settings : Settings) (changes : Adjustment) : Bool × Settings :=
  let first : Settings :=
    { settings with
      mode := changes.mode.getD settings.mode
      nominal := changes.nominal.getD settings.nominal
      loopback := changes.loopback.getD settings.loopback }
  let second (receiveId : BitVec 11) : Settings :=
    { first with
      buffers :=
        { transmit := changes.transmit.getD settings.buffers.transmit
          receive := changes.receive.getD settings.buffers.receive
          receiveId := receiveId }
      pollLimit := changes.pollLimit.getD settings.pollLimit }
  match changes.receiveId with
  | none => (true, second settings.buffers.receiveId)
  | some number =>
    match Identifier.standard? number with
    | none => (false, first)
    | some receiveId => (true, second receiveId)

end Settings

namespace Bench

def empty : Bench := ⟨.empty, .fresh, []⟩

def holder (bench : Bench) (node : Nat) : Holder := bench.holders.getD node .gone

def hold (bench : Bench) (node : Nat) (holder : Holder) : Bench :=
  { bench with holders := bench.holders.set node holder }

def registersOf (node : Nat) : Handler registers (Wire × Probe) := Probe.watch node (Wire.access node)

def run {α : Type} (bench : Bench) (node : Nat) (program : Program registers α) : α × Bench :=
  match program.run (registersOf node) (bench.wire, bench.probe) with
  | (value, (wire, probe)) => (value, { bench with wire := wire, probe := probe })

def runBoth {face : Interface} {α σ : Type} (bench : Bench) (node : Nat) (device : Handler face σ)
    (state : σ) (program : Program (registers.both face) α) : α × σ × Bench :=
  match program.run ((registersOf node).both device) ((bench.wire, bench.probe), state) with
  | (value, ((wire, probe), after)) => (value, after, { bench with wire := wire, probe := probe })

def runWindow {α : Type} (bench : Bench) (node : Nat) (device : WindowDevice)
    (program : Program Link.devices α) : Checked α × WindowDevice × Bench :=
  match program.runChecked ((Handler.checked (registersOf node)).both
      (WindowDevice.access Aes.cipher)) ((bench.wire, bench.probe), device) with
  | (value, ((wire, probe), after)) => (value, after, { bench with wire := wire, probe := probe })

def settle (bench : Bench) (node : Nat) : Except SetupError Holder → BenchReply × Bench
  | .ok holder => (.done, bench.hold node holder)
  | .error error => (.setupFailed error, bench.hold node .gone)

def start (bench : Bench) (node : Nat)
    (program : Program registers (Checked (Except SetupError Running))) : BenchReply × Bench :=
  match bench.run node program with
  | (.error fault, after) => (.fault fault, after.hold node .gone)
  | (.ok outcome, after) => after.settle node (outcome.map .running)

def attach (bench : Bench) (clock : Clock) (bitRate : UInt32) (preset : List (Nat × UInt32))
    (stalled : Bool) (faults : List ReadFault) : BenchReply × Bench :=
  let node := bench.wire.stations.length
  match bench.wire.attach.preset node preset with
  | (outcome, wire) =>
    let attached : Bench :=
      { wire := if stalled then wire.stall node else wire
        probe := bench.probe.setFaults node faults
        holders := bench.holders ++ [.gone] }
    match outcome with
    | .error fault => (.fault fault, attached)
    | .ok () =>
      match attached.run node (Frozen.attach clock bitRate).run with
      | (outcome, after) => after.settle node (outcome.map .frozen)

def deliver (bench : Bench) : Checked Nat × Bench :=
  match bench.wire.deliver with
  | (outcome, wire) => (outcome, { bench with wire := wire })

def deliverNext (bench : Bench) : Checked Bool × Bench :=
  match bench.wire.deliverNext with
  | (outcome, wire) => (outcome, { bench with wire := wire })

def poll (bench : Bench) (node : Nat) (player : Player) (lamp : Lamp) :
    Except (PlayerError Nat) Bool × Player × Bench :=
  match bench.runBoth node Lamp.access lamp player.poll with
  | ((result, player), lamp, after) => (result, player, after.hold node (.player player lamp))

/-- Take turns until one polls in vain or fails. The node that is next comes first. -/
def takeTurns : (turns : Nat) → (next other : Nat) → (polls : Nat) →
    (received : UInt32 × UInt32) → Bench → Checked RoundsReport × Bench
  | 0, _, _, polls, received, bench => (.ok ⟨polls, received, none⟩, bench)
  | turns + 1, next, other, polls, received, bench =>
    match bench.deliver with
    | (.error fault, bench) => (.error fault, bench)
    | (.ok _, bench) =>
      match bench.holder next with
      | .player player lamp =>
        match bench.poll next player lamp with
        | (.error error, player, bench) =>
          (.ok ⟨polls, (player.received, received.2), some error⟩, bench)
        | (.ok false, player, bench) => (.ok ⟨polls, (player.received, received.2), none⟩, bench)
        | (.ok true, player, bench) =>
          match takeTurns turns other next (polls + 1) (received.2, player.received) bench with
          | (.ok report, bench) =>
            (.ok { report with received := (report.received.2, report.received.1) }, bench)
          | (.error fault, bench) => (.error fault, bench)
      | _ => (.ok ⟨polls, received, none⟩, bench)

def rounds (bench : Bench) (first second count : Nat) : BenchReply × Bench :=
  match bench.holder first, bench.holder second with
  | .player .., .player .. =>
    match takeTurns (2 * count) first second 0 (0, 0) bench with
    | (.error fault, after) => (.fault fault, after)
    | (.ok report, after) => (.rounds report, after)
  | _, _ => (.badState, bench)

def performAny (bench : Bench) (node : Nat) : NodeStep → Option (BenchReply × Bench)
  | .peek offset => some <|
    match bench.wire.peek node offset with
    | .ok word => (.number word.toNat, bench)
    | .error fault => (.fault fault, bench)
  | .ram word => some <|
    match bench.wire.peek node (ramOffset word) with
    | .ok word => (.number word.toNat, bench)
    | .error fault => (.fault fault, bench)
  | .timerReads => some
    (.number ((bench.wire.stations[node]?.map Station.timerReads).getD 0), bench)
  | .stall => some (.done, { bench with wire := bench.wire.stall node })
  | .write offset value => some <|
    -- The probe notes a write before the controller looks for the word.
    match bench.run node (writeWord offset value) with
    | ((), after) => (if Memory.contains offset then .done else .fault .outOfBounds, after)
  | .setFaults faults => some (.done, { bench with probe := bench.probe.setFaults node faults })
  | _ => none

def readRaw (bench : Bench) (node offset : Nat) : BenchReply × Bench :=
  if Memory.contains offset then
    match bench.run node (readWord offset) with
    | (word, after) => (.number word.toNat, after)
  else (.fault .outOfBounds, bench)

def performFrozen (bench : Bench) (node : Nat) (frozen : Frozen) : NodeStep → BenchReply × Bench
  | .adjust changes =>
    match frozen.settings.adjust changes with
    | (accepted, settings) =>
      (if accepted then .done else .invalidId,
        bench.hold node (.frozen { frozen with settings := settings }))
  | .finalize => bench.start node frozen.start
  | .startPlayer role variant => bench.start node (PingPong.start role variant frozen)
  | .startLink role => bench.start node (CommandLink.start role frozen)
  | .showSettings => (.settings frozen.settings, bench)
  | .raw offset => bench.readRaw node offset
  | _ => (.badState, bench)

def transmit (bench : Bench) (node : Nat)
    (program : Program registers (Except (Refusal TransmitError) Unit)) : BenchReply × Bench :=
  match bench.run node program with
  | (result, after) => (.ofTransmit result, after)

def echo (running : Running) : Program registers (Except (Refusal TransmitError) Unit) := do
  match ← running.receive with
  | none => return .error .wouldBlock
  | some message => running.transmitDraft message.echo

def performRunning (bench : Bench) (node : Nat) (running : Running) :
    NodeStep → BenchReply × Bench
  | .showSettings => (.settings running.settings, bench)
  | .raw offset => bench.readRaw node offset
  | .freeze =>
    match bench.run node running.freeze.run with
    | (outcome, after) => after.settle node (outcome.map .frozen)
  | .release => (.released node running.clock, bench.hold node .gone)
  | .transmit frame =>
    match frame.draft? with
    | none => (.invalidId, bench)
    | some draft => bench.transmit node (running.transmitDraft draft)
  | .send id extended payload =>
    match Identifier.ofNat? extended id with
    | none => (.invalidId, bench)
    | some id => bench.transmit node (running.transmitPayload id payload)
  | .receive =>
    match bench.run node running.receive with
    | (none, after) => (.wouldBlock, after)
    | (some message, after) => (.message message, after)
  | .echo => bench.transmit node (echo running)
  | .status =>
    match bench.run node (do return (← Running.protocolStatus, ← Running.errorCounters)) with
    | ((protocol, counters), after) => (.status protocol counters, after)
  | .timeStamp =>
    match bench.run node Running.timeStamp with
    | (time, after) => (.number time, after)
  | .becomePlayer role failing =>
    (.done, bench.hold node (.player (.new role running) { failing }))
  | .becomeLink role device stored key pollLimit =>
    match device.prepare Aes.cipher stored with
    | .error fault => (.fault fault, bench)
    | .ok device => (.done, bench.hold node (.link { running, role, key, pollLimit } device))
  | _ => (.badState, bench)

def performPlayer (bench : Bench) (node : Nat) (player : Player) (lamp : Lamp) :
    NodeStep → BenchReply × Bench
  | .kickOff =>
    match bench.run node player.start with
    | (result, after) => (.started result, after)
  | .poll =>
    match bench.poll node player lamp with
    | (result, player, after) => (.polled result player.received, after)
  | .free => (.freedPlayer lamp, bench.hold node (.running player.running))
  | _ => (.badState, bench)

def performLink (bench : Bench) (node : Nat) (link : Link) (device : WindowDevice) :
    NodeStep → BenchReply × Bench
  | .linkSend command =>
    match bench.runWindow node device (link.send command) with
    | (.ok result, device, after) =>
      (.linkSent result device.commands, after.hold node (.link link device))
    | (.error fault, device, after) => (.fault fault, after.hold node (.link link device))
  | .linkReceive =>
    match bench.runWindow node device link.receive with
    | (.ok reception, device, after) =>
      (.linkReceived reception device.commands, after.hold node (.link link device))
    | (.error fault, device, after) => (.fault fault, after.hold node (.link link device))
  | .setEncryption on =>
    let link := link.setEncryption on
    (.flag link.encryption, bench.hold node (.link link device))
  | .toggleEncryption =>
    let link := link.toggleEncryption
    (.flags link.encryption link.encryption, bench.hold node (.link link device))
  | .hang => (.done, bench.hold node (.link link device.hang))
  | .free => (.freedLink device.commands, bench.hold node (.running link.running))
  | _ => (.badState, bench)

def performNode (bench : Bench) (node : Nat) (step : NodeStep) : BenchReply × Bench :=
  if node < bench.holders.length then
    match bench.performAny node step with
    | some outcome => outcome
    | none =>
      match bench.holder node with
      | .gone => (.badState, bench)
      | .frozen frozen => bench.performFrozen node frozen step
      | .running running => bench.performRunning node running step
      | .player player lamp => bench.performPlayer node player lamp step
      | .link link device => bench.performLink node link device step
  else (.badState, bench)

def perform (bench : Bench) : BenchStep → BenchReply × Bench
  | .attach clock bitRate preset stalled faults => bench.attach clock bitRate preset stalled faults
  | .deliver =>
    match bench.deliver with
    | (.ok sent, after) => (.number sent, after)
    | (.error fault, after) => (.fault fault, after)
  | .deliverNext =>
    match bench.deliverNext with
    | (.ok any, after) => (.flag any, after)
    | (.error fault, after) => (.fault fault, after)
  | .rounds first second count => bench.rounds first second count
  | .node number step => bench.performNode number step

def step (bench : Bench) (action : BenchStep) : BenchAnswer × Bench :=
  match { bench with probe := bench.probe.clearLog }.perform action with
  | (reply, after) =>
    ({ reply := reply
       changes := bench.wire.changes after.wire
       pending := after.wire.pending.length
       log := after.probe.record }, after)

def answers (bench : Bench) : List BenchStep → List BenchAnswer
  | [] => []
  | action :: rest =>
    match bench.step action with
    | (answer, after) =>
      if answer.reply.stops then [answer] else answer :: answers after rest

end Bench

end BufferedCan
