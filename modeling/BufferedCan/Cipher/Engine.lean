import BufferedCan.Cipher.Block
import BufferedCan.Cipher.Command

/-!
A model of the cipher engine. A command runs as soon as its header is written. What is left of an
operation, and the block that chaining goes on from, stay in the engine between commands.
-/

namespace BufferedCan

structure Engine where
  window : Window
  keys : Vector (Option Block) 32
  seeded : Bool
  randomByte : UInt8
  hung : Bool
  remaining : Nat
  chain : Block
  commands : Nat
  deriving DecidableEq

inductive CommandStatus
  | success
  | sequenceError
  | keyEmpty
  | randomNotSeeded
  | generalError
  deriving DecidableEq, Repr

def CommandStatus.toNat : CommandStatus → Nat
  | success => 0x001
  | sequenceError => 0x002
  | keyEmpty => 0x010
  | randomNotSeeded => 0x100
  | generalError => 0x800

namespace Engine

def reset : Engine where
  window := .zero
  keys := Vector.replicate 32 none
  seeded := false
  randomByte := 0
  hung := false
  remaining := 0
  chain := .zero
  commands := 0

def hang (engine : Engine) : Engine := { engine with hung := true }

def key? (engine : Engine) (slot : Nat) : Option Block := engine.keys[slot]?.getD none

def setKey (engine : Engine) (slot : Nat) (key : Block) : Engine :=
  { engine with keys := engine.keys.setIfInBounds slot (some key) }

def page (engine : Engine) (number : Nat) : Block :=
  .ofWords (engine.window.readAll (4 * number) 4)

def setPage (engine : Engine) (number : Nat) (block : Block) : Engine :=
  { engine with window := engine.window.writeAll (4 * number) block.words }

def randomBytes : (count : Nat) → UInt8 → List UInt8
  | 0, _ => []
  | count + 1, byte => (byte * 29 + 71) :: randomBytes count (byte * 29 + 71)

def drawRandom (engine : Engine) : Engine :=
  let bytes := randomBytes Block.size engine.randomByte
  { engine with randomByte := bytes.getLastD 0 }.setPage 1 (.ofBytes bytes)

structure CipherMode where
  encrypts : Bool
  chained : Bool
  deriving DecidableEq, Repr

def cipherBlock (cipher : BlockCipher) (key : Block) (mode : CipherMode) (chain input : Block) :
    Block × Block :=
  match mode.encrypts, mode.chained with
  | true, false => (cipher.encrypt key input, chain)
  | true, true =>
    let output := cipher.encrypt key (input.xor chain)
    (output, output)
  | false, false => (cipher.decrypt key input, chain)
  | false, true => ((cipher.decrypt key input).xor chain, input)

def cipherPages (cipher : BlockCipher) (key : Block) (mode : CipherMode) :
    (count number : Nat) → Engine → Engine
  | 0, _, engine => engine
  | count + 1, number, engine =>
    match cipherBlock cipher key mode engine.chain (engine.page number) with
    | (output, chain) =>
      cipherPages cipher key mode count (number + 1)
        { engine.setPage number output with chain := chain }

def cipherRest (cipher : BlockCipher) (key : Block) (mode : CipherMode) (first : Nat)
    (engine : Engine) : Engine :=
  let count := min engine.remaining (8 - first)
  { cipherPages cipher key mode count first engine with remaining := engine.remaining - count }

/-- A cipher command. The first of an operation reads the number of blocks, and for chaining the block
to start from; any later one needs blocks left over. -/
def runCipher (cipher : BlockCipher) (mode : CipherMode) (sequence slot : UInt8) (engine : Engine) :
    CommandStatus × Engine :=
  match engine.key? slot.toNat with
  | none => (.keyEmpty, engine)
  | some key =>
    if sequence = 0 then
      let started := { engine with remaining := (engine.window.read 3).toNat % 0x10000 }
      if mode.chained then
        (.success, cipherRest cipher key mode 2 { started with chain := started.page 1 })
      else (.success, cipherRest cipher key mode 1 started)
    else if engine.remaining = 0 then (.sequenceError, engine)
    else (.success, cipherRest cipher key mode 1 engine)

def runCommand (cipher : BlockCipher) (command sequence slot : UInt8) (engine : Engine) :
    CommandStatus × Engine :=
  match CipherCommand.ofByte? command with
  | some .loadPlainKey => (.success, engine.setKey KeySlot.ramKey.toByte.toNat (engine.page 1))
  | some .seedRandom => (.success, { engine with seeded := true })
  | some .random =>
    if engine.seeded then (.success, engine.drawRandom) else (.randomNotSeeded, engine)
  | some .encryptEcb => runCipher cipher ⟨true, false⟩ sequence slot engine
  | some .decryptEcb => runCipher cipher ⟨false, false⟩ sequence slot engine
  | some .encryptCbc => runCipher cipher ⟨true, true⟩ sequence slot engine
  | some .decryptCbc => runCipher cipher ⟨false, true⟩ sequence slot engine
  | none => (.generalError, engine)

def execute (cipher : BlockCipher) (header : UInt32) (engine : Engine) : Engine :=
  let byte (place : Nat) : UInt8 := UInt8.ofNat (header.toNat >>> place)
  match runCommand cipher (byte 24) (byte 8) (byte 0)
      { engine with commands := engine.commands + 1 } with
  | (status, after) =>
    { after with
      window := after.window.write 1
        ((after.window.read 1 &&& 0xFFFF) ||| UInt32.ofNat (status.toNat * 0x10000)) }

def write (cipher : BlockCipher) (engine : Engine) (word : Nat) (value : UInt32) : Engine :=
  let written := { engine with window := engine.window.write word value }
  if word = 0 ∧ ¬ engine.hung then execute cipher value written else written

def access (cipher : BlockCipher) : Handler commandWindow Engine
  | .read word, engine => (engine.window.read word, engine)
  | .write word value, engine => ((), engine.write cipher word value)
  | .isComplete, engine => (!engine.hung, engine)

end Engine

end BufferedCan
