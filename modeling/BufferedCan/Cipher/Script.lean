import BufferedCan.Cipher.Engine

/-!
Other things behind a command window: a script that answers each command as it was told to, and plain
memory with a status byte that never changes.
-/

namespace BufferedCan

/-- A window that follows a script. Command `n` finds its status, the number of times that it reports
to be incomplete, and the words that it stores at place `n` of the lists. -/
structure Script where
  window : Window
  statuses : List Nat
  delays : List Nat
  replies : List (List (Nat × UInt32))
  commands : Nat
  countdown : Nat
  writes : List (Nat × UInt32)
  polls : Nat
  deriving DecidableEq

namespace Script

/-- The status of a command comes before the words that it stores. A word that the window does not
have is a fault. -/
def answer (script : Script) : Checked Unit × Script :=
  let status := script.statuses.getD script.commands 1
  let marked := script.window.write 1
    ((script.window.read 1 &&& 0xFFFF) ||| UInt32.ofNat (status * 0x10000))
  match marked.writeEach (script.replies.getD script.commands []) with
  | (outcome, window) =>
    (outcome,
      { script with
        window := window
        countdown := script.delays.getD script.commands 0
        commands := script.commands + 1 })

def write (script : Script) (word : Nat) (value : UInt32) : Checked Unit × Script :=
  let noted := { script with writes := (word, value) :: script.writes }
  if word < windowWords then
    let written := { noted with window := noted.window.write word value }
    if word = 0 then written.answer else (.ok (), written)
  else (.error .outOfBounds, noted)

def poll (script : Script) : Bool × Script :=
  (script.countdown == 0,
    { script with countdown := script.countdown - 1, polls := script.polls + 1 })

def access : CheckedHandler commandWindow Script
  | .read word, script =>
    if word < windowWords then (.ok (script.window.read word), script)
    else (.error .outOfBounds, script)
  | .write word value, script => script.write word value
  | .isComplete, script => (.ok script.poll.1, script.poll.2)

end Script

structure MappedWindow where
  window : Window
  status : UInt8
  deriving DecidableEq

def MappedWindow.access : Handler commandWindow MappedWindow
  | .read word, mapped => (mapped.window.read word, mapped)
  | .write word value, mapped => ((), { mapped with window := mapped.window.write word value })
  | .isComplete, mapped => (mapped.status &&& 0x80 != 0, mapped)

inductive WindowDevice
  | engine (engine : Engine)
  | script (script : Script)
  | mapped (mapped : MappedWindow)
  deriving DecidableEq

namespace WindowDevice

def access (cipher : BlockCipher) : CheckedHandler commandWindow WindowDevice
  | call, engine device =>
    match (Engine.access cipher).within WindowCall.inside call device with
    | (reply, after) => (reply, engine after)
  | call, script device =>
    match Script.access call device with
    | (reply, after) => (reply, script after)
  | call, mapped device =>
    match Handler.within MappedWindow.access WindowCall.inside call device with
    | (reply, after) => (reply, mapped after)

def prepare (cipher : BlockCipher) (device : WindowDevice) :
    List (Nat × UInt32) → Checked WindowDevice
  | [] => .ok device
  | (word, value) :: rest =>
    match access cipher (.write word value) device with
    | (.error fault, _) => .error fault
    | (.ok (), after) => prepare cipher after rest

def window : WindowDevice → Window
  | engine device => device.window
  | script device => device.window
  | mapped device => device.window

def commands : WindowDevice → Nat
  | engine device => device.commands
  | script device => device.commands
  | mapped _ => 0

def hang : WindowDevice → WindowDevice
  | engine device => engine device.hang
  | other => other

end WindowDevice

end BufferedCan
