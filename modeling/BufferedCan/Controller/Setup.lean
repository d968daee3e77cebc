import BufferedCan.Buffer.Transfer
import BufferedCan.Controller.Handshake

/-!
Setting up a controller. A `Frozen` controller is in freeze mode and its settings may be changed; a
`Running` one takes part in the bus. Settings are checked as a whole before the first register is
written: `Settings.plan?` works out what to program, and `Plan.apply` programs it.
-/

namespace BufferedCan

structure Frozen where
  clock : Clock
  settings : Settings
  deriving DecidableEq, Repr

structure Running where
  clock : Clock
  settings : Settings
  transmitBuffer : Buffer
  receiveBuffer : Buffer

inductive Rates
  | classic (prescaler : Nat)
  | flexible (rate : FlexibleRate) (nominal data : Nat)
  deriving DecidableEq, Repr

structure Plan where
  transmitBuffer : Buffer
  receiveBuffer : Buffer
  rates : Rates

namespace Settings

def buffers? (settings : Settings) : Option (Buffer × Buffer) := do
  let transmit ← Buffer.at? settings.mode.dataSize settings.buffers.transmit
  let receive ← Buffer.at? settings.mode.dataSize settings.buffers.receive
  if transmit.index ≠ receive.index then some (transmit, receive) else none

def delayFits (rate : FlexibleRate) : Bool :=
  rate.delayOffset.all fun offset => offset.toNat ≤ 31

def rates (settings : Settings) (clock : Clock) : Checked (Except SetupError Rates) := do
  match settings.mode with
  | .classic =>
    match ← settings.nominal.prescaler clock.frequency .classic with
    | .error error => return .error (.timing error)
    | .ok prescaler => return .ok (.classic prescaler)
  | .flexible rate =>
    match ← settings.nominal.prescaler clock.frequency .nominal with
    | .error error => return .error (.timing error)
    | .ok nominal =>
      match ← rate.dataTiming.prescaler clock.frequency .dataPhase with
      | .error error => return .error (.timing error)
      | .ok data =>
        if delayFits rate then return .ok (.flexible rate nominal data)
        else return .error .invalidDelayOffset

def plan (settings : Settings) (clock : Clock) : Checked (Except SetupError Plan) :=
  match settings.buffers? with
  | none => .ok (.error .invalidBuffers)
  | some (transmitBuffer, receiveBuffer) => do
    match ← settings.rates clock with
    | .error error => return .error error
    | .ok rates => return .ok { transmitBuffer, receiveBuffer, rates }

end Settings

def Ctrl1.withTiming (timing : BitTiming) (prescaler : Nat) (word : UInt32) : UInt32 :=
  Ctrl1.propseg.set (timing.propagation.toNat - 1) <|
    Ctrl1.pseg2.set (timing.phase2.toNat - 1) <| Ctrl1.pseg1.set (timing.phase1.toNat - 1) <|
    Ctrl1.rjw.set (timing.jumpWidth.toNat - 1) <| Ctrl1.presdiv.set (prescaler - 1) word

def Cbt.withTiming (timing : BitTiming) (prescaler : Nat) (word : UInt32) : UInt32 :=
  Cbt.epseg2.set (timing.phase2.toNat - 1) <| Cbt.epseg1.set (timing.phase1.toNat - 1) <|
    Cbt.epropseg.set (timing.propagation.toNat - 1) <| Cbt.erjw.set (timing.jumpWidth.toNat - 1) <|
    Cbt.epresdiv.set (prescaler - 1) <| Cbt.btf.put true word

/-- Data phase timing in one word: every length but the propagation segment is stored less one. -/
def FdCbt.withTiming (timing : BitTiming) (prescaler : Nat) (word : UInt32) : UInt32 :=
  FdCbt.fpseg2.set (timing.phase2.toNat - 1) <| FdCbt.fpseg1.set (timing.phase1.toNat - 1) <|
    FdCbt.fpropseg.set timing.propagation.toNat <| FdCbt.frjw.set (timing.jumpWidth.toNat - 1) <|
    FdCbt.fpresdiv.set (prescaler - 1) word

def FdCtrl.withRate (rate : FlexibleRate) (word : UInt32) : UInt32 :=
  FdCtrl.tdcoff.set (rate.delayOffset.getD 0).toNat <| FdCtrl.tdcen.put rate.delayOffset.isSome <|
    FdCtrl.mbdsr0.set rate.dataSize.toBits <| FdCtrl.fdrate.put rate.allowSwitching word

namespace Rates

def program (rates : Rates) (nominal : BitTiming) : Program registers Unit :=
  match rates with
  | classic prescaler => do
    Register.ctrl1.modify (Ctrl1.withTiming nominal prescaler)
    Register.cbt.modify (Cbt.btf.put false)
    Register.ctrl2.modify (Ctrl2.isocanfden.put false)
  | flexible rate prescaler dataPrescaler => do
    Register.cbt.modify (Cbt.withTiming nominal prescaler)
    Register.fdCbt.modify (FdCbt.withTiming rate.dataTiming dataPrescaler)
    Register.fdCtrl.modify (FdCtrl.withRate rate)
    Register.ctrl2.modify (Ctrl2.isocanfden.put true)

end Rates

namespace Plan

def prepareBuffers (plan : Plan) (settings : Settings) : Program registers Unit := do
  Program.forEach (List.range ramWords) fun word => writeRam word 0
  Program.forEach (List.range rxMaskCount) fun index => writeRxMask index 0xFFFFFFFF
  Register.rxMgMask.write 0x1FFFFFFF
  plan.receiveBuffer.arm settings.buffers.receiveId settings.mode.isFd

def configure (plan : Plan) (settings : Settings) : Program registers Unit := do
  plan.rates.program settings.nominal
  Register.ctrl1.modify (Ctrl1.lpb.put settings.loopback)
  plan.prepareBuffers settings
  Register.mcr.modify fun word =>
    Mcr.maxmb.set (plan.transmitBuffer.size.bufferCount - 1) (Mcr.fden.put settings.mode.isFd word)

def apply (plan : Plan) (frozen : Frozen) : Attempt SetupError Running := do
  plan.configure frozen.settings
  leaveFreeze frozen.settings.pollLimit
  return { clock := frozen.clock
           settings := frozen.settings
           transmitBuffer := plan.transmitBuffer
           receiveBuffer := plan.receiveBuffer }

end Plan

namespace Frozen

def attach (clock : Clock) (bitRate : UInt32) : Attempt SetupError Frozen := do
  let settings := Settings.ofBitRate bitRate
  selectClock clock.source settings.pollLimit
  enterFreeze settings.pollLimit
  return { clock, settings }

def start (frozen : Frozen) : Program registers (Checked (Except SetupError Running)) :=
  match frozen.settings.plan frozen.clock with
  | .error fault => .done (.error fault)
  | .ok (.error error) => .done (.ok (.error error))
  | .ok (.ok plan) => do
    let outcome ← (plan.apply frozen).run
    return .ok outcome

end Frozen

namespace Running

def freeze (running : Running) : Attempt SetupError Frozen := do
  enterFreeze running.settings.pollLimit
  return { clock := running.clock, settings := running.settings }

end Running

end BufferedCan
