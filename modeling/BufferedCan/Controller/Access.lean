import BufferedCan.Program
import BufferedCan.Register

/-!
Access to the register block, a word at a time. Everything a controller is told or asked goes through
these two calls.
-/

namespace BufferedCan

inductive Access
  | read (offset : Nat)
  | write (offset : Nat) (value : UInt32)
  deriving DecidableEq, Repr

@[reducible] def Access.Reply : Access → Type
  | read _ => UInt32
  | write _ _ => Unit

@[reducible] def registers : Interface := ⟨Access, Access.Reply⟩

def readWord (offset : Nat) : Program registers UInt32 := .ask (.read offset) .done

def writeWord (offset : Nat) (value : UInt32) : Program registers Unit :=
  .ask (.write offset value) .done

def readRam (word : Nat) : Program registers UInt32 := readWord (ramOffset word)

def writeRam (word : Nat) (value : UInt32) : Program registers Unit :=
  writeWord (ramOffset word) value

def writeRxMask (index : Nat) (value : UInt32) : Program registers Unit :=
  writeWord (rxMaskOffset index) value

namespace Register

def read (register : Register) : Program registers UInt32 := readWord register.offset

def write (register : Register) (value : UInt32) : Program registers Unit :=
  writeWord register.offset value

/-- Read the register and write back what `change` makes of it. A register whose flags are cleared by
writing them must not be changed this way. -/
def modify (register : Register) (change : UInt32 → UInt32) : Program registers Unit := do
  let word ← register.read
  register.write (change word)

end Register

def Program.forEach {face : Interface} {α : Type} (values : List α)
    (step : α → Program face Unit) : Program face Unit :=
  match values with
  | [] => .done ()
  | value :: rest => do
    step value
    forEach rest step

def Program.collect {face : Interface} {α β : Type} (values : List α)
    (step : α → Program face β) : Program face (List β) :=
  match values with
  | [] => .done []
  | value :: rest => do
    let first ← step value
    let others ← collect rest step
    return first :: others

end BufferedCan
