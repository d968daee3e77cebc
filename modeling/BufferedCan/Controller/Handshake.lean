import BufferedCan.Controller.Access
import BufferedCan.Settings

/-!
Mode changes of the controller. Software asks for a mode in the module configuration register and
waits until the register acknowledges it, reading it a bounded number of times.
-/

namespace BufferedCan

inductive Handshake
  | lowPowerEntry
  | lowPowerExit
  | freezeEntry
  | freezeExit
  | ready
  deriving DecidableEq, Repr

inductive SetupError
  | timing (error : TimingError)
  | timeout (handshake : Handshake)
  | invalidBuffers
  | invalidDelayOffset
  deriving DecidableEq, Repr

abbrev Attempt (ε : Type) := ExceptT ε (Program registers)

namespace Handshake

def reached : Handshake → UInt32 → Bool
  | lowPowerEntry, word => Mcr.lpmack.isSet word
  | lowPowerExit, word => !Mcr.lpmack.isSet word
  | freezeEntry, word => Mcr.frzack.isSet word
  | freezeExit, word => !Mcr.frzack.isSet word
  | ready, word => !Mcr.notrdy.isSet word

def await (handshake : Handshake) : (limit : Nat) → Program registers (Except SetupError Unit)
  | 0 => .done (.error (.timeout handshake))
  | limit + 1 => do
    let word ← Register.mcr.read
    if handshake.reached word then return .ok () else handshake.await limit

end Handshake

/-- Disable the controller, select its clock and enable it again; the clock can only be changed while
the controller is disabled. -/
def selectClock (source : ClockSource) (limit : Nat) : Attempt SetupError Unit := do
  Register.mcr.modify (Mcr.mdis.put true)
  ExceptT.mk (Handshake.lowPowerEntry.await limit)
  Register.ctrl1.modify (Ctrl1.clksrc.put (source == .peripheral))
  Register.mcr.modify (Mcr.mdis.put false)
  ExceptT.mk (Handshake.lowPowerExit.await limit)

def enterFreeze (limit : Nat) : Attempt SetupError Unit := do
  Register.mcr.modify fun word => Mcr.halt.put true (Mcr.frz.put true word)
  ExceptT.mk (Handshake.freezeEntry.await limit)

def leaveFreeze (limit : Nat) : Attempt SetupError Unit := do
  Register.mcr.modify fun word => Mcr.halt.put false (Mcr.frz.put false word)
  ExceptT.mk (Handshake.freezeExit.await limit)
  ExceptT.mk (Handshake.ready.await limit)

end BufferedCan
