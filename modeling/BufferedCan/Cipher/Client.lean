import BufferedCan.Cipher.Block
import BufferedCan.Cipher.Command

/-!
Using the cipher engine. Input longer than the window goes through in pieces, one command each: seven
blocks at a time, or six behind the start value of a chained operation. Output that a failed
operation did not reach keeps the caller's bytes.
-/

namespace BufferedCan.CipherClient

def maxPages : Nat := 7

def pageWord (page : Nat) : Nat := 4 * page

def readWindow (word : Nat) : Program commandWindow UInt32 := .ask (.read word) .done

def writeWindow (word : Nat) (value : UInt32) : Program commandWindow Unit :=
  .ask (.write word value) .done

def isComplete : Program commandWindow Bool := .ask .isComplete .done

def writeWords (word : Nat) : List UInt32 → Program commandWindow Unit
  | [] => .done ()
  | value :: rest => do
    writeWindow word value
    writeWords (word + 1) rest

def readWords (word : Nat) : (count : Nat) → Program commandWindow (List UInt32)
  | 0 => .done []
  | count + 1 => do
    let value ← readWindow word
    let rest ← readWords (word + 1) count
    return value :: rest

def awaitCompletion : (more : Nat) → Program commandWindow Bool
  | 0 => isComplete
  | more + 1 => do
    if ← isComplete then return true else awaitCompletion more

/-- Start a command and wait for its status, asking at most `limit` times but at least once. -/
def execute (limit : Nat) (command : CipherCommand) (sequence : Sequence) (slot : KeySlot) :
    Program commandWindow (Except CipherError Unit) := do
  writeWindow 0 (commandHeader command sequence slot)
  if ← awaitCompletion (limit - 1) then
    let status ← readWindow 1
    match CipherError.ofStatus? (status.toNat / 0x10000) with
    | none => return .ok ()
    | some error => return .error error
  else return .error .timeout

def seedRandom (limit : Nat) : Program commandWindow (Except CipherError Unit) :=
  execute limit .seedRandom .first .secretKey

def random (limit : Nat) : Program commandWindow (Except CipherError Block) := do
  match ← execute limit .random .first .secretKey with
  | .error error => return .error error
  | .ok () => return .ok (.ofWords (← readWords (pageWord 1) 4))

def loadPlainKey (limit : Nat) (key : Block) : Program commandWindow (Except CipherError Unit) := do
  writeWords (pageWord 1) key.words
  execute limit .loadPlainKey .first .ramKey

def pieces (room : Nat) : (fuel : Nat) → List UInt8 → List (List UInt8)
  | 0, _ => []
  | _ + 1, [] => []
  | fuel + 1, bytes => bytes.take room :: pieces room fuel (bytes.drop room)

def chunks (start : Option Block) (input : List UInt8) : List (List UInt8) :=
  let room := maxPages * Block.size
  match start with
  | none => pieces room input.length input
  | some _ =>
    let firstRoom := (maxPages - 1) * Block.size
    input.take firstRoom :: pieces room input.length (input.drop firstRoom)

structure Outcome where
  result : Except CipherError Unit
  output : List UInt8

/-- Feed chunks through the engine. `finished` is the output so far, last byte first, and `rest` is
the part of the output buffer after it. -/
def feed (limit : Nat) (command : CipherCommand) (slot : KeySlot) (sequence : Sequence)
    (page : Nat) : List (List UInt8) → (finished rest : List UInt8) → Program commandWindow Outcome
  | [], finished, rest => .done ⟨.ok (), finished.reverseAux rest⟩
  | chunk :: more, finished, rest => do
    writeWords (pageWord page) (Word.packAll chunk)
    match ← execute limit command sequence slot with
    | .error error => return ⟨.error error, finished.reverseAux rest⟩
    | .ok () =>
      let words ← readWords (pageWord page) (chunk.length / 4)
      feed limit command slot .subsequent 1 more
        ((Word.unpackAll words).reverseAux finished) (rest.drop chunk.length)

def lengthFits (input output : Nat) : Bool :=
  input != 0 && input % Block.size == 0 && input ≤ output && input / Block.size < 0x10000

def setPageLength (pages : Nat) : Program commandWindow Unit := do
  let word ← readWindow 3
  writeWindow 3 ((word &&& 0xFFFF0000) ||| UInt32.ofNat pages)

def process (limit : Nat) (command : CipherCommand) (slot : KeySlot) (start : Option Block)
    (input output : List UInt8) : Program commandWindow Outcome :=
  if lengthFits input.length output.length then do
    setPageLength (input.length / Block.size)
    let page ← match start with
      | none => pure 1
      | some block => do
        writeWords (pageWord 1) block.words
        pure 2
    feed limit command slot .first page (chunks start input) [] output
  else .done ⟨.error .invalidLength, output⟩

def encryptEcb (limit : Nat) (slot : KeySlot) (input output : List UInt8) :
    Program commandWindow Outcome :=
  process limit .encryptEcb slot none input output

def decryptEcb (limit : Nat) (slot : KeySlot) (input output : List UInt8) :
    Program commandWindow Outcome :=
  process limit .decryptEcb slot none input output

def encryptCbc (limit : Nat) (slot : KeySlot) (start : Block) (input output : List UInt8) :
    Program commandWindow Outcome :=
  process limit .encryptCbc slot (some start) input output

def decryptCbc (limit : Nat) (slot : KeySlot) (start : Block) (input output : List UInt8) :
    Program commandWindow Outcome :=
  process limit .decryptCbc slot (some start) input output

def encryptBlock (limit : Nat) (slot : KeySlot) (block : Block) : Program commandWindow Outcome :=
  encryptEcb limit slot block.toList block.toList

def decryptBlock (limit : Nat) (slot : KeySlot) (block : Block) : Program commandWindow Outcome :=
  decryptEcb limit slot block.toList block.toList

end BufferedCan.CipherClient
