import BufferedCan.Proofs.Cipher.Calls
import BufferedCan.Proofs.Cipher.Turns

/-! How software uses the command window, whatever the engine replies and however often calls fail.
All its accesses lie in the window and it never writes the words of the engine. The header of a
command is written once, after the data that belongs to it, and no other write can be taken for a
header. -/

namespace BufferedCan

def writesTo (word : Nat) (trace : List (Event commandWindow)) : List UInt32 :=
  trace.filterMap fun event =>
    match event.call with
    | .write place value => if place = word then some value else none
    | _ => none

def Inside (trace : List (Event commandWindow)) : Prop :=
  ∀ event ∈ trace, event.call.inside = true

theorem writesTo_append (word : Nat) (first second : List (Event commandWindow)) :
    writesTo word (first ++ second) = writesTo word first ++ writesTo word second :=
  List.filterMap_append

theorem writesTo_written {word place : Nat} (values : List UInt32) (before : word < place) :
    writesTo word (written place values) = [] := by
  induction values generalizing place with
  | nil => rfl
  | cons value rest ih =>
      have apart : place ≠ word := by omega
      simp only [writesTo] at ih
      simp only [writesTo, written, List.filterMap_cons, apart, if_false]
      exact ih (by omega)

theorem writesTo_fetched (word place : Nat) (values : List UInt32) :
    writesTo word (fetched place values) = [] := by
  induction values generalizing place with
  | nil => rfl
  | cons value rest ih => exact ih (place + 1)

theorem writesTo_asked (word : Nat) (answers : List Bool) : writesTo word (asked answers) = [] := by
  induction answers with
  | nil => rfl
  | cons answer rest ih => exact ih

theorem writesTo_reported (word : Nat) (status : Option UInt32) :
    writesTo word (reported status) = [] := by
  cases status <;> rfl

namespace CipherTurn

structure Fits (turn : CipherTurn) : Prop where
  start : turn.start.length = 0 ∨ turn.start.length = 4
  whole : turn.data.length % 4 = 0
  room : turn.start.length + turn.data.length ≤ 28

variable {turn : CipherTurn}

theorem writesTo_accesses (turn : CipherTurn) {word : Nat} (low : word < 4) :
    writesTo word turn.accesses = if word = 0 then [turn.header] else [] := by
  have header : writesTo word [(⟨.write 0 turn.header, ()⟩ : Event commandWindow)] =
      if word = 0 then [turn.header] else [] := by
    by_cases zero : word = 0
    · subst zero
      rfl
    · have apart : 0 ≠ word := Ne.symm zero
      simp only [writesTo, List.filterMap_cons, apart, zero, if_false, List.filterMap_nil]
  rw [accesses, ← List.singleton_append]
  simp only [writesTo_append, writesTo_asked, writesTo_reported, writesTo_fetched, header,
    List.append_nil]
  rw [writesTo_written _ low, List.nil_append]

theorem fits_of_chunk {start words : List UInt32} {chunk : List UInt8} {header : UInt32}
    {answers : List Bool} {status : Option UInt32} (value : start.length = 0 ∨ start.length = 4)
    (whole : chunk.length % 16 = 0) (room : 4 + start.length + chunk.length / 4 ≤ windowWords) :
    Fits ⟨start, Word.packAll chunk, header, answers, status, words⟩ := by
  rw [windowWords] at room
  have length := Word.length_packAll chunk
  constructor
  · exact value
  · dsimp only
    omega
  · dsimp only
    omega

theorem Fits.pages (fits : turn.Fits) :
    ∃ pages ≤ if turn.start = [] then 7 else 6, turn.data.length = 4 * pages := by
  obtain ⟨start, whole, room⟩ := fits
  refine ⟨turn.data.length / 4, ?_, by omega⟩
  split
  next => omega
  next filled =>
    have some := List.length_pos_iff.2 filled
    omega

end CipherTurn

namespace Course

variable {limit : Nat} {command : CipherCommand} {slot : KeySlot} {sequence : Sequence}
  {start : List UInt32} {chunks : List (List UInt8)} {turns : List CipherTurn}
  {result : Except CipherError Unit}

theorem first (course : Course limit command slot sequence start chunks turns result) :
    ∀ turn ∈ turns.head?, turn.header = commandHeader command sequence slot ∧
      turn.start = start := by
  cases course with
  | finished => nofun
  | onward => rintro _ ⟨⟩; exact ⟨rfl, rfl⟩
  | stopped => rintro _ ⟨⟩; exact ⟨rfl, rfl⟩

theorem subsequent (course : Course limit command slot .subsequent [] chunks turns result) :
    ∀ turn ∈ turns, turn.header = commandHeader command .subsequent slot ∧ turn.start = [] := by
  generalize again : Sequence.subsequent = sequence, none : ([] : List UInt32) = start at course
  induction course with
  | finished => nofun
  | onward _ _ _ ih =>
      obtain rfl := again
      obtain rfl := none
      exact List.forall_mem_cons.2 ⟨⟨rfl, rfl⟩, ih rfl rfl⟩
  | stopped =>
      obtain rfl := again
      obtain rfl := none
      exact List.forall_mem_cons.2 ⟨⟨rfl, rfl⟩, nofun⟩

theorem later (course : Course limit command slot sequence start chunks turns result) :
    ∀ turn ∈ turns.tail, turn.header = commandHeader command .subsequent slot ∧
      turn.start = [] := by
  cases course with
  | finished => nofun
  | onward _ _ rest => exact rest.subsequent
  | stopped => nofun

theorem fits (course : Course limit command slot sequence start chunks turns result) (page : Nat)
    (front : 4 * page = 4 + start.length) (value : start.length = 0 ∨ start.length = 4)
    (room : CipherClient.Fits page chunks)
    (whole : ∀ chunk ∈ chunks, chunk.length % 16 = 0) : ∀ turn ∈ turns, turn.Fits := by
  induction course generalizing page with
  | finished => nofun
  | onward _ _ _ ih =>
      obtain ⟨own, others⟩ := List.forall_mem_cons.1 whole
      refine List.forall_mem_cons.2 ⟨?_, ih 1 rfl (.inl rfl) room.later others⟩
      apply CipherTurn.fits_of_chunk value own
      rw [← front]
      exact room.1
  | stopped =>
      obtain ⟨own, others⟩ := List.forall_mem_cons.1 whole
      refine List.forall_mem_cons.2 ⟨?_, nofun⟩
      apply CipherTurn.fits_of_chunk value own
      rw [← front]
      exact room.1

end Course

/-! Calls. -/

namespace CipherRequest

def command : CipherRequest → CipherCommand
  | seedRandom => .seedRandom
  | random => .random
  | loadPlainKey _ => .loadPlainKey
  | operate operation _ _ _ => operation.mode.command

def slot : CipherRequest → KeySlot
  | seedRandom | random => .secretKey
  | loadPlainKey _ => .ramKey
  | operate _ slot _ _ => slot

def start : CipherRequest → List UInt32
  | operate operation _ _ _ => CipherClient.startWords operation.start?
  | _ => []

def data : CipherRequest → List UInt8
  | seedRandom | random => []
  | loadPlainKey key => key.toList
  | operate _ _ input _ => input

end CipherRequest

def CipherCall.attempt (call : CipherCall) : Program commandWindow (Except CipherError Unit) :=
  match call.request with
  | .seedRandom => CipherClient.seedRandom call.limit
  | .random => do
    match ← CipherClient.random call.limit with
    | .error error => return .error error
    | .ok _ => return .ok ()
  | .loadPlainKey key => CipherClient.loadPlainKey call.limit key
  | .operate operation slot input output => do
    return (← operation.program call.limit slot input output).result

structure CipherRecord where
  call : CipherCall
  opening : List (Event commandWindow)
  turns : List CipherTurn
  result : Except CipherError Unit

namespace CipherRecord

def accesses (record : CipherRecord) : List (Event commandWindow) :=
  record.opening ++ record.turns.flatMap CipherTurn.accesses

/-- The length of the call stands in the lower half of word 3, and the upper half stays as it was
read right before. -/
def Announces (record : CipherRecord) : Prop :=
  ∃ word value, record.opening = [⟨.read 3, word⟩, ⟨.write 3 value, ()⟩] ∧
    value.toNat / 0x10000 = word.toNat / 0x10000 ∧
    value.toNat % 0x10000 = record.call.request.data.length / Block.size

theorem writesTo_turns (turns : List CipherTurn) {word : Nat} (low : word < 4) :
    writesTo word (turns.flatMap CipherTurn.accesses) =
      if word = 0 then turns.map CipherTurn.header else [] := by
  induction turns with
  | nil => split <;> rfl
  | cons turn rest ih =>
      rw [List.flatMap_cons, writesTo_append, turn.writesTo_accesses low, ih]
      split <;> rfl

variable {record : CipherRecord}

theorem writesTo_opening (opening : record.opening = [] ∨ record.Announces) {word : Nat}
    (low : word < 3) : writesTo word record.opening = [] := by
  rcases opening with empty | ⟨found, value, shape, -⟩
  · rw [empty]
    rfl
  · have apart : 3 ≠ word := by omega
    rw [shape]
    simp only [writesTo, List.filterMap_cons, apart, if_false, List.filterMap_nil]

theorem writesTo_accesses (opening : record.opening = [] ∨ record.Announces) {word : Nat}
    (low : word < 3) : writesTo word record.accesses =
      if word = 0 then record.turns.map CipherTurn.header else [] := by
  rw [accesses, writesTo_append, writesTo_opening opening low, List.nil_append,
    writesTo_turns _ (by omega)]

variable {limit : Nat} {trace : List (Event commandWindow)} {result : Except CipherError Unit}

end CipherRecord

end BufferedCan
