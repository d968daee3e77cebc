import BufferedCan.Program

/-!
An indicator is a light that can be toggled. Toggling may fail, with an error of the light's own. A
command of one byte toggles one of two lights.
-/

namespace BufferedCan

@[reducible] def indicator (ε : Type) : Interface := ⟨Unit, fun _ => Except ε Unit⟩

def toggle {ε : Type} : Program (indicator ε) (Except ε Unit) := .ask () .done

/-- A light whose calls with the given numbers fail; calls count from one. -/
structure Lamp where
  failing : List Nat
  calls : Nat := 0
  toggles : Nat := 0
  deriving DecidableEq, Repr

def Lamp.access : Handler (indicator Nat) Lamp
  | (), lamp =>
    let call := lamp.calls + 1
    if lamp.failing.contains call then (.error call, { lamp with calls := call })
    else (.ok (), { lamp with calls := call, toggles := lamp.toggles + 1 })

inductive LedCommand
  | led0Change
  | led1Change
  deriving DecidableEq, Repr

namespace LedCommand

def toByte : LedCommand → UInt8
  | led0Change => 0
  | led1Change => 1

def ofByte? : UInt8 → Option LedCommand
  | 0 => some led0Change
  | 1 => some led1Change
  | _ => none

theorem ofByte?_toByte (command : LedCommand) : ofByte? command.toByte = some command := by
  cases command <;> rfl

theorem toByte_of_ofByte? {byte : UInt8} {command : LedCommand}
    (known : ofByte? byte = some command) : command.toByte = byte := by
  unfold ofByte? at known
  split at known
  · cases known
    rfl
  · cases known
    rfl
  · cases known

def apply {ε : Type} :
    LedCommand → Program ((indicator ε).both (indicator ε)) (Except ε Unit)
  | led0Change => toggle.onLeft
  | led1Change => toggle.onRight

end LedCommand

end BufferedCan
