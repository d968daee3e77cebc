import BufferedCan.Buffer.Layout
import BufferedCan.Controller.Access
import BufferedCan.Frame.Message

/-!
Moving messages between software and a message buffer. Writing the control word hands a buffer over
to the controller, so it comes last; reading it locks the buffer, so it comes first.
-/

namespace BufferedCan.Buffer

def readCode (buffer : Buffer) : Program registers BufferCode := do
  let control ← readRam buffer.controlWord
  return .ofBits (MbCs.code.get control)

/-- Write the payload words that the buffer has room for, then the identifier word, then the control
word with the given code. -/
def store (buffer : Buffer) (message : Message) (code : BufferCode) : Program registers Unit := do
  let count := min message.wordCount buffer.size.payloadWords
  Program.forEach (List.range count) fun number =>
    writeRam (buffer.payloadWord number) (message.word number)
  writeRam buffer.identWord message.ident
  writeRam buffer.controlWord (MbCs.code.set code.toBits message.control)

def armedControl (fd : Bool) : UInt32 :=
  MbCs.code.set BufferCode.rxEmpty.toBits (MbCs.brs.put fd (MbCs.edl.put fd 0))

def arm (buffer : Buffer) (id : BitVec 11) (fd : Bool) : Program registers Unit := do
  writeRam buffer.identWord (Identifier.standard id).toWord
  writeRam buffer.controlWord (armedControl fd)

def awaitControl (buffer : Buffer) : (limit : Nat) → Program registers (Option UInt32)
  | 0 => .done none
  | limit + 1 => do
    let control ← readRam buffer.controlWord
    if (BufferCode.ofBits (MbCs.code.get control)).isBusy then buffer.awaitControl limit
    else return some control

def fetch (buffer : Buffer) (limit : Nat) : Program registers (Option Message) := do
  match ← buffer.awaitControl limit with
  | none => return none
  | some control =>
    let ident ← readRam buffer.identWord
    let header : Message :=
      { control, ident, payload := .ofBytes [], capacity := buffer.size.bytes }
    let count := min header.wordCount buffer.size.payloadWords
    let words ← Program.collect (List.range count) fun number =>
      readRam (buffer.payloadWord number)
    return some { header with payload := .ofWords words }

end BufferedCan.Buffer
