import BufferedCan.Controller.Traffic
import BufferedCan.Exchange.Indicator

/-!
Ping-pong. Two nodes bounce a fixed payload back and forth: each answers every frame that it receives,
and toggles its indicator at every thousandth one.
-/

namespace BufferedCan

namespace PingPong

def payload : List UInt8 := [0xA5, 0x11, 0x22, 0x33, 0x44, 0x55, 0x66, 0x77]

def toggleEvery : Nat := 1000

def delayOffset : UInt8 := 5

inductive Role
  | nodeA
  | nodeB
  deriving DecidableEq, Repr

namespace Role

def receiveId : Role → BitVec 11
  | nodeA => 0x511
  | nodeB => 0x555

def transmitId : Role → BitVec 11
  | nodeA => nodeB.receiveId
  | nodeB => nodeA.receiveId

end Role

def classicTiming : BitTiming := { bitRate := 500000 }

def nominalTiming : BitTiming where
  bitRate := 500000
  jumpWidth := 16
  propagation := 47
  phase1 := 16
  phase2 := 16

def dataTiming : BitTiming where
  bitRate := 2000000
  jumpWidth := 4
  propagation := 7
  phase1 := 8
  phase2 := 4

def flexibleRate (dataSize : DataSize) : FlexibleRate where
  allowSwitching := true
  dataTiming := dataTiming
  dataSize := dataSize
  delayOffset := some delayOffset

inductive Variant
  | classic
  | flexible
  deriving DecidableEq, Repr

namespace Variant

def mode : Variant → Mode
  | classic => .classic
  | flexible => .flexible (flexibleRate .bytes64)

def timing : Variant → BitTiming
  | classic => classicTiming
  | flexible => nominalTiming

end Variant

def settings (role : Role) (variant : Variant) (before : Settings) : Settings :=
  { before with
    mode := variant.mode
    nominal := variant.timing
    buffers := { transmit := 0, receive := 4, receiveId := role.receiveId } }

def start (role : Role) (variant : Variant) (frozen : Frozen) :
    Program registers (Checked (Except SetupError Running)) :=
  { frozen with settings := settings role variant frozen.settings }.start

end PingPong

inductive PlayerError (ε : Type)
  | transmit (error : TransmitError)
  | indicator (error : ε)
  deriving DecidableEq, Repr

structure Player where
  running : Running
  role : PingPong.Role
  received : UInt32 := 0
  replyPending : Bool := false

namespace Player

open PingPong

def new (role : Role) (running : Running) : Player := { running, role }

def payload (player : Player) : List UInt8 :=
  if player.running.settings.mode.isFd then
    PingPong.payload ++ List.replicate (64 - PingPong.payload.length) 0
  else PingPong.payload

def send (player : Player) : Program registers (Except (Refusal TransmitError) Unit) :=
  player.running.transmitPayload (.standard player.role.transmitId) player.payload

def start (player : Player) : Program registers (Except (Refusal TransmitError) Unit) :=
  match player.role with
  | .nodeA => player.send
  | .nodeB => .done (.ok ())

def reply (player : Player) : Program registers (Except TransmitError Unit × Player) := do
  match ← player.send with
  | .ok () => return (.ok (), { player with replyPending := false })
  | .error .wouldBlock => return (.ok (), player)
  | .error (.failed error) => return (.error error, player)

def replyIfPending (player : Player) : Program registers (Except TransmitError Unit × Player) :=
  if player.replyPending then player.reply else .done (.ok (), player)

def count (player : Player) : Player := { player with received := player.received + 1 }

def togglesNow (player : Player) : Bool := player.received.toNat % toggleEvery == 0

variable {ε : Type}

def indicate (player : Player) : Program (indicator ε) (Except ε Unit) :=
  if player.togglesNow then toggle else .done (.ok ())

/-- Handle at most one received frame; the value says whether there was one. A pending reply comes
first, and a reply that finds the transmit buffer busy is pending until a later call. -/
def poll (player : Player) :
    Program (registers.both (indicator ε)) (Except (PlayerError ε) Bool × Player) := do
  match ← player.replyIfPending.onLeft with
  | (.error error, player) => return (.error (.transmit error), player)
  | (.ok (), player) =>
    match ← player.running.receive.onLeft with
    | none => return (.ok false, player)
    | some _ =>
      let player := player.count
      match ← player.indicate.onRight with
      | .error error => return (.error (.indicator error), player)
      | .ok () =>
        match ← { player with replyPending := true }.reply.onLeft with
        | (.error error, player) => return (.error (.transmit error), player)
        | (.ok (), player) => return (.ok true, player)

end Player

end BufferedCan
