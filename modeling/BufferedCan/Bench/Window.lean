import BufferedCan.Cipher.Aes
import BufferedCan.Cipher.Client
import BufferedCan.Cipher.Script

/-!
A bench for the cipher engine: a client on a command window, tried out step by step. Every step is
answered with its result and with the words of the window that it changed.
-/

namespace BufferedCan

inductive WindowStep
  | setPollLimit (limit : Nat)
  | seedRandom
  | random
  | loadPlainKey (key : Block)
  | encryptBlock (slot : KeySlot) (block : Block)
  | decryptBlock (slot : KeySlot) (block : Block)
  | encryptEcb (slot : KeySlot) (input output : List UInt8)
  | decryptEcb (slot : KeySlot) (input output : List UInt8)
  | encryptCbc (slot : KeySlot) (start : Block) (input output : List UInt8)
  | decryptCbc (slot : KeySlot) (start : Block) (input output : List UInt8)
  | write (word : Nat) (value : UInt32)
  | isComplete
  | hang
  | free

inductive WindowReply
  | done
  | failed (error : CipherError)
  | fault (fault : Fault)
  | badState
  | flag (value : Bool)
  | number (value : Nat)

structure WindowBench where
  device : WindowDevice
  pollLimit : Nat := 100000
  freed : Bool := false

structure WindowAnswer where
  reply : WindowReply
  data : Option (List UInt8)
  changes : List (Nat × UInt32)
  commands : Nat
  writes : List (Nat × UInt32)
  polls : Nat

namespace WindowReply

def ofResult : Except CipherError Unit → WindowReply
  | .ok () => done
  | .error error => failed error

def stops : WindowReply → Bool
  | fault _ => true
  | _ => false

end WindowReply

namespace WindowBench

def blankByte : UInt8 := 0xEE

def run {α : Type} (bench : WindowBench) (program : Program commandWindow α)
    (answer : α → WindowReply × Option (List UInt8)) :
    (WindowReply × Option (List UInt8)) × WindowBench :=
  match program.runChecked (WindowDevice.access Aes.cipher) bench.device with
  | (.ok value, device) => (answer value, { bench with device := device })
  | (.error fault, device) => ((.fault fault, none), { bench with device := device })

def runPlain (bench : WindowBench)
    (program : Program commandWindow (Except CipherError Unit)) :
    (WindowReply × Option (List UInt8)) × WindowBench :=
  bench.run program fun result => (.ofResult result, none)

def runCipher (bench : WindowBench) (program : Program commandWindow CipherClient.Outcome) :
    (WindowReply × Option (List UInt8)) × WindowBench :=
  bench.run program fun outcome => (.ofResult outcome.result, some outcome.output)

def ofRandom : Except CipherError Block → WindowReply × Option (List UInt8)
  | .ok block => (.done, some block.toList)
  | .error error => (.failed error, some (List.replicate Block.size blankByte))

def perform (bench : WindowBench) :
    WindowStep → (WindowReply × Option (List UInt8)) × WindowBench
  | .setPollLimit limit => ((.done, none), { bench with pollLimit := limit })
  | .seedRandom => bench.runPlain (CipherClient.seedRandom bench.pollLimit)
  | .random => bench.run (CipherClient.random bench.pollLimit) ofRandom
  | .loadPlainKey key => bench.runPlain (CipherClient.loadPlainKey bench.pollLimit key)
  | .encryptBlock slot block =>
    bench.runCipher (CipherClient.encryptBlock bench.pollLimit slot block)
  | .decryptBlock slot block =>
    bench.runCipher (CipherClient.decryptBlock bench.pollLimit slot block)
  | .encryptEcb slot input output =>
    bench.runCipher (CipherClient.encryptEcb bench.pollLimit slot input output)
  | .decryptEcb slot input output =>
    bench.runCipher (CipherClient.decryptEcb bench.pollLimit slot input output)
  | .encryptCbc slot start input output =>
    bench.runCipher (CipherClient.encryptCbc bench.pollLimit slot start input output)
  | .decryptCbc slot start input output =>
    bench.runCipher (CipherClient.decryptCbc bench.pollLimit slot start input output)
  | .write word value => bench.run (CipherClient.writeWindow word value) fun _ => (.done, none)
  | .isComplete => bench.run CipherClient.isComplete fun complete => (.flag complete, none)
  | .hang => ((.done, none), { bench with device := bench.device.hang })
  | .free => ((.number bench.device.commands, none), { bench with freed := true })

def forget : WindowDevice → WindowDevice
  | .script script => .script { script with writes := [], polls := 0 }
  | other => other

def seen : WindowDevice → List (Nat × UInt32) × Nat
  | .script script => (script.writes.reverse, script.polls)
  | _ => ([], 0)

def step (bench : WindowBench) (action : WindowStep) : WindowAnswer × WindowBench :=
  let before := { bench with device := forget bench.device }
  match if before.freed then ((.badState, none), before) else before.perform action with
  | ((reply, data), after) =>
    ({ reply := reply
       data := data
       changes := before.device.window.changes after.device.window
       commands := after.device.commands
       writes := (seen after.device).1
       polls := (seen after.device).2 }, after)

def answers (bench : WindowBench) : List WindowStep → List WindowAnswer
  | [] => []
  | action :: rest =>
    match bench.step action with
    | (answer, after) =>
      if answer.reply.stops then [answer] else answer :: answers after rest

def new (device : WindowDevice) (stored : List (Nat × UInt32)) : Checked WindowBench := do
  return { device := ← device.prepare Aes.cipher stored }

end WindowBench

end BufferedCan
