import BufferedCan.Controller.Setup
import BufferedCan.Frame.Draft

/-!
Sending and receiving on a running controller: one buffer for each direction. Nothing here waits; a
call that would have to wait says so and changes nothing.
-/

namespace BufferedCan

inductive Refusal (ε : Type)
  | wouldBlock
  | failed (error : ε)
  deriving DecidableEq, Repr

inductive TransmitError
  | fdNotEnabled
  | switchingNotEnabled
  | tooMuchData
  /-- The controller turns a buffer that sent a remote frame into a receive buffer. -/
  | remoteFrame
  deriving DecidableEq, Repr

namespace Refusal

def map {ε δ : Type} (change : ε → δ) : Refusal ε → Refusal δ
  | wouldBlock => wouldBlock
  | failed error => failed (change error)

end Refusal

namespace Running

def objection? (running : Running) (message : Message) : Option TransmitError :=
  let mode := running.settings.mode
  if message.isRemote then some .remoteFrame
  else if !mode.isFd && message.isFd then some .fdNotEnabled
  else if mode.isFd && !mode.allowsSwitching && message.switchesRate then some .switchingNotEnabled
  else if running.transmitBuffer.size.bytes < message.length then some .tooMuchData
  else none

def enqueue (running : Running) (message : Message) : Program registers Unit := do
  Register.iflag1.write (flagWord running.transmitBuffer.index)
  running.transmitBuffer.store message .txData

def transmit (running : Running) (message : Message) :
    Program registers (Except (Refusal TransmitError) Unit) :=
  match running.objection? message with
  | some error => .done (.error (.failed error))
  | none => do
    let code ← running.transmitBuffer.readCode
    if code.isInactive then
      running.enqueue message
      return .ok ()
    else return .error .wouldBlock

def draft (running : Running) (id : Identifier) (payload : List UInt8) : Draft where
  id := id
  content := match running.settings.mode with
    | .classic => .data payload
    | .flexible rate => .flexible payload rate.allowSwitching false

def transmitDraft (running : Running) (draft : Draft) :
    Program registers (Except (Refusal TransmitError) Unit) :=
  match draft.encode? with
  | none => .done (.error (.failed .tooMuchData))
  | some message => running.transmit message

def transmitPayload (running : Running) (id : Identifier) (payload : List UInt8) :
    Program registers (Except (Refusal TransmitError) Unit) :=
  running.transmitDraft (running.draft id payload)

def receive (running : Running) : Program registers (Option Message) := do
  let flags ← Register.iflag1.read
  if flagSet running.receiveBuffer.index flags then
    match ← running.receiveBuffer.fetch running.settings.pollLimit with
    | none => return none
    | some message =>
      let _ ← Register.timer.read
      Register.iflag1.write (flagWord running.receiveBuffer.index)
      return some message
  else return none

end Running

end BufferedCan
