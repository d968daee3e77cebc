import BufferedCan.Proofs.Frame.Reading
import BufferedCan.Proofs.Network.System

/-! What a network of controllers amounts to, without registers or buffer memory: one queue of frames,
and for each running node one slot for a received frame. A frame leaves the queue and enters the slots
of the nodes that it is meant for; a node has at most one frame in the queue. -/

namespace BufferedCan

structure Frame where
  sender : Nat
  draft : Draft
  lengthCode : Nat

namespace Frame

def length (frame : Frame) : Nat := Length.ofCode frame.draft.content.isFd frame.lengthCode

end Frame

structure Arrival where
  frame : Frame
  overrun : Bool
  timestamp : Nat

structure Member where
  settings : Settings
  slot : Option Arrival
  /-- Frames that the node has followed, modulo 65536. -/
  time : Nat

namespace Member

def follows (member : Member) (frame : Frame) : Bool :=
  !frame.draft.content.isFd || member.settings.mode.isFd

def hear (frame : Frame) (member : Member) : Member :=
  if member.follows frame then
    { member with
      slot :=
        if frame.draft.id = .standard member.settings.buffers.receiveId then
          some { frame, overrun := member.slot.isSome, timestamp := member.time }
        else member.slot
      time := (member.time + 1) % 65536 }
  else member

def reading (member : Member) (arrival : Arrival) : Reading :=
  arrival.frame.draft.reading arrival.frame.lengthCode member.settings.mode.dataSize.bytes
    arrival.overrun arrival.timestamp

end Member

def Settings.refusal? (settings : Settings) (content : Content) (length : Nat) :
    Option TransmitError :=
  if content.isRemote then some .remoteFrame
  else if !settings.mode.isFd && content.isFd then some .fdNotEnabled
  else if settings.mode.isFd && !settings.mode.allowsSwitching && content.switchesRate then
    some .switchingNotEnabled
  else if settings.mode.dataSize.bytes < length then some .tooMuchData
  else none

inductive Node
  | gone
  | frozen (frozen : Frozen)
  | running (member : Member)

namespace Node

def hear (frame : Frame) : Node → Node
  | running member => running (member.hear frame)
  | other => other

end Node

structure Network where
  queue : List Frame
  nodes : List Node

namespace Network

def empty : Network := ⟨[], []⟩

def node (network : Network) (number : Nat) : Node := network.nodes.getD number .gone

def put (network : Network) (number : Nat) (node : Node) : Network :=
  { network with nodes := network.nodes.set number node }

def busy (network : Network) (number : Nat) : Bool :=
  network.queue.any fun frame => frame.sender == number

def loopback (network : Network) (number : Nat) : Bool :=
  match network.node number with
  | .running member => member.settings.loopback
  | _ => false

def finalize (network : Network) (number : Nat) (frozen : Frozen) : Reply Reading × Network :=
  match frozen.settings.plan frozen.clock with
  | .error problem => (.fault problem, network.put number .gone)
  | .ok (.error error) => (.setupFailed error, network.put number .gone)
  | .ok (.ok _) =>
    if frozen.settings.pollLimit = 0 then
      (.setupFailed (.timeout .freezeExit), network.put number .gone)
    else
      (.done, network.put number
        (.running { settings := frozen.settings, slot := none, time := 0 }))

def transmit (network : Network) (number : Nat) (draft : Draft) : Reply Reading × Network :=
  match network.node number with
  | .running member =>
    match Length.code? draft.content.isFd draft.content.length with
    | none => (.transmitFailed .tooMuchData, network)
    | some lengthCode =>
      let frame : Frame := ⟨number, draft, lengthCode⟩
      match member.settings.refusal? draft.content frame.length with
      | some error => (.transmitFailed error, network)
      | none =>
        if network.busy number then (.wouldBlock, network)
        else (.done, { network with queue := network.queue ++ [frame] })
  | _ => (.badState, network)

def format (network : Network) (number : Nat) (id : Identifier) (payload : List UInt8) : Draft :=
  match network.node number with
  | .running member =>
    match member.settings.mode with
    | .classic => ⟨id, .data payload⟩
    | .flexible rate => ⟨id, .flexible payload rate.allowSwitching false⟩
  | _ => ⟨id, .data payload⟩

def receive (network : Network) (number : Nat) : Reply Reading × Network :=
  match network.node number with
  | .running member =>
    match member.slot with
    | none => (.wouldBlock, network)
    | some arrival => (.message (member.reading arrival),
        network.put number (.running { member with slot := none }))
  | _ => (.badState, network)

def deliverNext (network : Network) : Reply Reading × Network :=
  match network.queue with
  | [] => (.delivered false, network)
  | frame :: rest =>
    (.delivered true,
      { queue := rest
        nodes := network.nodes.mapIdx fun number node =>
          if network.loopback frame.sender && number != frame.sender then node
          else node.hear frame })

def step (network : Network) : Action → Reply Reading × Network
  | .attach _ clock bitRate =>
    (.done, { network with
      nodes := network.nodes ++ [.frozen { clock, settings := .ofBitRate bitRate }] })
  | .adjust number settings =>
    match network.node number with
    | .frozen frozen => (.done, network.put number (.frozen { frozen with settings := settings }))
    | _ => (.badState, network)
  | .finalize number =>
    match network.node number with
    | .frozen frozen => network.finalize number frozen
    | _ => (.badState, network)
  | .transmit number draft => network.transmit number draft
  | .send number id payload => network.transmit number (network.format number id payload)
  | .receive number => network.receive number
  | .status number =>
    match network.node number with
    | .running _ => (.status (.protocolStatus 0) (.errorCounters 0), network)
    | _ => (.badState, network)
  | .timeStamp number =>
    match network.node number with
    | .running member => (.time member.time, network)
    | _ => (.badState, network)
  | .deliverNext => network.deliverNext
  | .configure _ | .stall _ => (.badState, network)

def run (network : Network) : List Action → List (Reply Reading) × Network
  | [] => ([], network)
  | action :: rest =>
    let (reply, after) := network.step action
    let (replies, last) := after.run rest
    (reply :: replies, last)

def replies (network : Network) (actions : List Action) : List (Reply Reading) :=
  (network.run actions).1

def after (network : Network) (actions : List Action) : Network := (network.run actions).2

end Network

/-- The actions of a network whose controllers are connected in their reset state and set up once. -/
def Action.Ordinary : Action → Prop
  | .attach station _ _ => station = .reset
  | .configure _ | .stall _ => False
  | _ => True

end BufferedCan
