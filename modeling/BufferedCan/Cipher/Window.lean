import BufferedCan.Program.Checked

/-!
The command window of the cipher engine: 32 words that software and the engine share, and a flag that
says whether the last command is complete. Writing word 0 starts a command.
-/

namespace BufferedCan

inductive WindowCall
  | read (word : Nat)
  | write (word : Nat) (value : UInt32)
  | isComplete
  deriving DecidableEq, Repr

@[reducible] def WindowCall.Reply : WindowCall → Type
  | read _ => UInt32
  | write _ _ => Unit
  | isComplete => Bool

@[reducible] def commandWindow : Interface := ⟨WindowCall, WindowCall.Reply⟩

def windowWords : Nat := 32

def WindowCall.inside : WindowCall → Bool
  | read word => word < windowWords
  | write word _ => word < windowWords
  | isComplete => true

structure Window where
  words : Vector UInt32 windowWords
  deriving DecidableEq

namespace Window

def zero : Window := ⟨Vector.replicate windowWords 0⟩

def read (window : Window) (word : Nat) : UInt32 := window.words[word]?.getD 0

def write (window : Window) (word : Nat) (value : UInt32) : Window :=
  ⟨window.words.setIfInBounds word value⟩

theorem read_write_self (window : Window) {word : Nat} (value : UInt32)
    (inside : word < windowWords) : (window.write word value).read word = value := by
  simp [read, write, inside]

theorem read_write_of_ne (window : Window) {word other : Nat} (value : UInt32)
    (apart : word ≠ other) : (window.write word value).read other = window.read other := by
  simp [read, write, apart]

def writeAll (window : Window) (word : Nat) : List UInt32 → Window
  | [] => window
  | value :: rest => (window.write word value).writeAll (word + 1) rest

def writeEach (window : Window) : List (Nat × UInt32) → Checked Unit × Window
  | [] => (.ok (), window)
  | (word, value) :: rest =>
    if word < windowWords then (window.write word value).writeEach rest
    else (.error .outOfBounds, window)

def readAll (window : Window) (word count : Nat) : List UInt32 :=
  (List.range count).map fun number => window.read (word + number)

def changes (before after : Window) : List (Nat × UInt32) :=
  (List.range windowWords).filterMap fun word =>
    if before.read word = after.read word then none else some (word, after.read word)

end Window

end BufferedCan
