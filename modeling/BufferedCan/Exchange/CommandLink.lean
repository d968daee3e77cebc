import BufferedCan.Cipher.Client
import BufferedCan.Exchange.PingPong

/-!
A link that carries commands for lights from one node to another. With encryption on, the command byte
is the first of an otherwise zero block, and the encrypted block is sent; with encryption off the byte
is sent as it is.
-/

namespace BufferedCan

namespace CommandLink

inductive Role
  | master
  | slave
  deriving DecidableEq, Repr

namespace Role

def transmitBuffer : Role → Nat
  | master => 1
  | slave => 0

def receiveBuffer : Role → Nat
  | master => 0
  | slave => 1

def transmitId : Role → BitVec 11
  | master => 1
  | slave => 2

def receiveId : Role → BitVec 11
  | master => 2
  | slave => 1

end Role

def settings (role : Role) (before : Settings) : Settings :=
  { before with
    nominal := PingPong.nominalTiming
    mode := .flexible (PingPong.flexibleRate .bytes16)
    buffers :=
      { transmit := role.transmitBuffer
        receive := role.receiveBuffer
        receiveId := role.receiveId } }

def start (role : Role) (frozen : Frozen) :
    Program registers (Checked (Except SetupError Running)) :=
  { frozen with settings := settings role frozen.settings }.start

end CommandLink

inductive LinkError
  | transmit (error : TransmitError)
  | security (error : CipherError)
  deriving DecidableEq, Repr

inductive Discard
  | unexpectedId
  | unexpectedLength (length : Nat)
  | decryptionFailed
  | unknownCommand (byte : UInt8)
  deriving DecidableEq, Repr

inductive Reception
  | command (command : LedCommand)
  | discarded (reason : Discard)
  deriving DecidableEq, Repr

structure Link where
  running : Running
  role : CommandLink.Role
  key : KeySlot
  pollLimit : Nat
  encryption : Bool := true

namespace Link

@[reducible] def devices : Interface := registers.both commandWindow

def setEncryption (link : Link) (encryption : Bool) : Link := { link with encryption }

def toggleEncryption (link : Link) : Link := link.setEncryption !link.encryption

def plainBlock (command : LedCommand) : Block := .ofBytes [command.toByte]

def wrap (link : Link) (command : LedCommand) :
    Program commandWindow (Except CipherError (List UInt8)) := do
  if link.encryption then
    let outcome ← CipherClient.encryptBlock link.pollLimit link.key (plainBlock command)
    match outcome.result with
    | .error error => return .error error
    | .ok () => return .ok outcome.output
  else return .ok [command.toByte]

def send (link : Link) (command : LedCommand) :
    Program devices (Except (Refusal LinkError) Unit) := do
  match ← (link.wrap command).onRight with
  | .error error => return .error (.failed (.security error))
  | .ok payload =>
    let sent ← (link.running.transmitPayload (.standard link.role.transmitId) payload).onLeft
    return sent.mapError (Refusal.map .transmit)

def unwrap (link : Link) (data : List UInt8) :
    Program commandWindow (Except Discard UInt8) := do
  if link.encryption then
    if data.length = Block.size then
      let outcome ← CipherClient.decryptBlock link.pollLimit link.key (.ofBytes data)
      match outcome.result with
      | .error _ => return .error .decryptionFailed
      | .ok () => return .ok (outcome.output.headD 0)
    else return .error (.unexpectedLength data.length)
  else
    match data with
    | [] => return .error (.unexpectedLength 0)
    | byte :: _ => return .ok byte

def decode (link : Link) (message : Message) : Program commandWindow Reception := do
  if message.id = .standard link.role.receiveId then
    match ← link.unwrap message.data with
    | .error reason => return .discarded reason
    | .ok byte =>
      match LedCommand.ofByte? byte with
      | some command => return .command command
      | none => return .discarded (.unknownCommand byte)
  else return .discarded .unexpectedId

def receive (link : Link) : Program devices (Option Reception) := do
  match ← link.running.receive.onLeft with
  | none => return none
  | some message => return some (← (link.decode message).onRight)

end Link

end BufferedCan
