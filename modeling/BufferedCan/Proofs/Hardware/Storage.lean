import BufferedCan.Buffer.Transfer
import BufferedCan.Proofs.Frame.Echo

/-! Message buffers in memory that only programs change. What is stored lies in the words of the buffer
and nowhere else, and it is what is fetched. -/

namespace BufferedCan

namespace Buffer

def held (buffer : Buffer) (ram : Nat → UInt32) : Message :=
  .ofWords buffer.size (ram buffer.controlWord) (ram buffer.identWord) <|
    (List.range (min ((Length.ofControl (ram buffer.controlWord) + 3) / 4) buffer.size.payloadWords)).map
      fun number => ram (buffer.payloadWord number)

theorem code_held (buffer : Buffer) (ram : Nat → UInt32) :
    (buffer.held ram).code = .ofBits (MbCs.code.get (ram buffer.controlWord)) := rfl

/-! Reading from a device that is not changed by it. -/

section
variable {σ : Type} {handler : Handler registers σ} {state : σ} {ram : Nat → UInt32}
  (still : ∀ word, (readRam word).run handler state = (ram word, state)) (buffer : Buffer)
include still

theorem run_readCode : buffer.readCode.run handler state = ((buffer.held ram).code, state) := by
  rw [readCode, Program.run_bind, still, code_held]
  rfl

theorem run_awaitControl (limit : Nat) :
    (buffer.awaitControl limit).run handler state =
      (if 0 < limit ∧ (buffer.held ram).code.isBusy = false then some (ram buffer.controlWord)
        else none, state) := by
  induction limit with
  | zero => simp [awaitControl]
  | succ limit ih =>
      rw [awaitControl, Program.run_bind, still]
      rw [code_held] at ih ⊢
      cases busy : (BufferCode.ofBits (MbCs.code.get (ram buffer.controlWord))).isBusy with
      | true => simp [busy, ih]
      | false => simp

omit buffer in
theorem run_collect_readRam (place : Nat → Nat) (numbers : List Nat) :
    (Program.collect numbers fun number => readRam (place number)).run handler state =
      (numbers.map fun number => ram (place number), state) := by
  induction numbers with
  | nil => rfl
  | cons first rest ih =>
      rw [Program.collect, Program.run_bind, still, Program.run_bind, ih]
      rfl

theorem run_fetch (limit : Nat) :
    (buffer.fetch limit).run handler state =
      (if 0 < limit ∧ (buffer.held ram).code.isBusy = false then some (buffer.held ram) else none,
        state) := by
  rw [fetch, Program.run_bind, run_awaitControl still]
  by_cases ready : 0 < limit ∧ (buffer.held ram).code.isBusy = false
  · simp only [if_pos ready]
    rw [Program.run_bind, still, Program.run_bind, run_collect_readRam still, Message.wordCount,
      Message.length_eq_ofControl]
    rfl
  · simp only [if_neg ready]
    rfl

end

theorem held_congr (buffer : Buffer) {first second : Nat → UInt32}
    (same : ∀ place < buffer.size.bufferWords,
      first (buffer.controlWord + place) = second (buffer.controlWord + place)) :
    buffer.held first = buffer.held second := by
  have words := buffer.size.bufferWords_eq
  have control : first buffer.controlWord = second buffer.controlWord := same 0 (by omega)
  have ident : first buffer.identWord = second buffer.identWord := same 1 (by omega)
  simp only [held, control, ident]
  congr 1
  apply List.map_congr_left
  intro number member
  have within := List.mem_range.1 member
  simp only [payloadWord, Nat.add_assoc]
  exact same (2 + number) (by omega)

end Buffer

namespace Memory

theorem run_readRam (memory : Memory) (word : Nat) :
    (readRam word).run access memory = (memory.ram word, memory) := rfl

theorem run_writeRam (memory : Memory) (word : Nat) (value : UInt32) :
    (BufferedCan.writeRam word value).run access memory = ((), memory.writeRam word value) := rfl

theorem write_comm (memory : Memory) {first second : Nat} (left right : UInt32)
    (apart : first / 4 ≠ second / 4) :
    (memory.write first left).write second right = (memory.write second right).write first left := by
  simp only [write, Vector.setIfInBound_comm left right apart]

theorem write_writeAll (memory : Memory) {offset before : Nat} (values : List UInt32) (value : UInt32)
    (below : before / 4 < offset / 4) :
    (memory.writeAll offset values).write before value =
      (memory.write before value).writeAll offset values := by
  induction values generalizing memory offset with
  | nil => rfl
  | cons first rest ih =>
      rw [writeAll, ih _ (by omega), write_comm _ _ _ (by omega), writeAll]

theorem run_forEach_writeRam (memory : Memory) (base start count : Nat) (content : Nat → UInt32) :
    (Program.forEach (List.range' start count) fun number =>
        BufferedCan.writeRam (base + number) (content number)).run access memory =
      ((), memory.writeAll (ramOffset (base + start)) ((List.range' start count).map content)) := by
  induction count generalizing memory start with
  | zero => rfl
  | succ count ih =>
      have next : ramOffset (base + start) + 4 = ramOffset (base + (start + 1)) := by
        simp only [ramOffset]
        omega
      rw [List.range'_succ, Program.forEach, Program.run_bind, run_writeRam, ih, List.map_cons,
        writeAll, next]
      rfl

end Memory

namespace Buffer

def image (buffer : Buffer) (message : Message) (code : BufferCode) : List UInt32 :=
  MbCs.code.set code.toBits message.control :: message.ident ::
    (List.range (min message.wordCount buffer.size.payloadWords)).map message.word

variable (buffer : Buffer) (message : Message) (code : BufferCode)

theorem length_image_le : (buffer.image message code).length ≤ buffer.size.bufferWords := by
  rw [image, List.length_cons, List.length_cons, List.length_map, List.length_range,
    DataSize.bufferWords_eq]
  omega

/-- The control word is written last, but what the memory is afterwards does not depend on the order. -/
theorem run_store (memory : Memory) :
    (buffer.store message code).run Memory.access memory =
      ((), memory.writeAll (ramOffset buffer.controlWord) (buffer.image message code)) := by
  have ident : ramOffset buffer.controlWord + 4 = ramOffset buffer.identWord := by
    simp only [ramOffset, identWord]
    omega
  have payload : ramOffset buffer.identWord + 4 = ramOffset (buffer.controlWord + 2 + 0) := by
    simp only [ramOffset, identWord]
    omega
  rw [store, List.range_eq_range', Program.run_bind]
  simp only [payloadWord, Memory.run_forEach_writeRam]
  -- The payload goes behind the other two words, and then these two change places.
  rw [Program.run_bind, Memory.run_writeRam, Memory.run_writeRam, image, Memory.writeAll, ident,
    Memory.writeAll, payload, Memory.writeRam, Memory.writeRam,
    Memory.write_writeAll _ _ _ (by simp only [ramOffset, identWord]; omega),
    Memory.write_writeAll _ _ _ (by simp only [ramOffset]; omega),
    Memory.write_comm _ _ _ (by simp only [ramOffset, identWord]; omega), List.range_eq_range']

theorem held_of_image {ram : Nat → UInt32}
    (image : ∀ place (within : place < (buffer.image message code).length),
      ram (buffer.controlWord + place) = (buffer.image message code)[place])
    (untimed : message.timestamp = 0) :
    buffer.held ram = message.readBack buffer.size code.toBits 0 := by
  have length : (buffer.image message code).length =
      min message.wordCount buffer.size.payloadWords + 2 := by
    simp [Buffer.image]
  have same := message.sameFrame_readBack buffer.size code.toBits 0
  have control : ram buffer.controlWord = (message.readBack buffer.size code.toBits 0).control := by
    have cleared : MbCs.timestamp.get (MbCs.code.set code.toBits message.control) = 0 := by
      rw [Field.get_set_of_disjoint (by decide)]
      exact untimed
    have first : ram buffer.controlWord = MbCs.code.set code.toBits message.control :=
      image 0 (by omega)
    rw [Message.readBack, Message.ofWords, ← cleared, Field.set_get, first]
  have ident : ram buffer.identWord = message.ident := image 1 (by omega)
  have count : (Length.ofControl (ram buffer.controlWord) + 3) / 4 = message.wordCount := by
    rw [control, ← Message.length_eq_ofControl, same.length, Message.wordCount]
  have words : (List.range (min message.wordCount buffer.size.payloadWords)).map
      (fun number => ram (buffer.payloadWord number)) =
      (List.range (min message.wordCount buffer.size.payloadWords)).map message.word := by
    apply List.map_congr_left
    intro number member
    have within := List.mem_range.1 member
    have stored := image (2 + number) (by omega)
    simp only [Buffer.image] at stored
    rw [payloadWord, Nat.add_assoc, stored]
    simp [Nat.add_comm 2 number]
  rw [held, count, control, ident, words]
  rfl

end Buffer

namespace Message

variable (message : Message) (size : DataSize)

theorem code_readBack (bits time : Nat) :
    (message.readBack size (BufferCode.ofBits bits).toBits time).code = .ofBits bits := by
  have small : bits % 16 % MbCs.code.size = bits % 16 := Nat.mod_mod _ _
  rw [code, readBack, ofWords, Field.get_set_of_disjoint (by decide), Field.get_set,
    BufferCode.toBits_ofBits, small, ← BufferCode.toBits_ofBits, BufferCode.ofBits_toBits_ofBits]

theorem timestamp_readBack (code time : Nat) :
    (message.readBack size code time).timestamp = time % 0x10000 := by
  rw [timestamp, readBack, ofWords, Field.get_set]
  rfl

end Message

namespace Buffer

def fetched (buffer : Buffer) (limit : Nat) (memory : Memory) : Option Message :=
  ((buffer.fetch limit).run Memory.access memory).1

/-- What storing a message in a buffer does to plain memory. -/
structure Holds (buffer : Buffer) (message : Message) (code : BufferCode) (before after : Memory) :
    Prop where
  busy : ∀ limit, 0 < limit → (buffer.fetched limit after = none ↔ code.isBusy = true)
  found : ∀ limit, 0 < limit → ∀ taken, buffer.fetched limit after = some taken →
    taken.SameFrame message ∧ taken.code = code ∧ taken.timestamp = 0 ∧
      taken.data = message.data.take (min message.length buffer.size.bytes)
  changed : ∀ offset, after.read offset ≠ before.read offset → ∃ place < buffer.size.bufferWords,
    buffer.controlWord + place < ramWords ∧
      offset / 4 = ramOffset (buffer.controlWord + place) / 4
  others : ∀ other : Buffer, other.size = buffer.size → other.index ≠ buffer.index →
    (∀ place < other.size.bufferWords,
      after.ram (other.controlWord + place) = before.ram (other.controlWord + place)) ∧
    (other.readCode.run Memory.access after).1 = (other.readCode.run Memory.access before).1 ∧
    ∀ limit, other.fetched limit after = other.fetched limit before

theorem fetched_eq (buffer : Buffer) (limit : Nat) (memory : Memory) :
    buffer.fetched limit memory =
      if 0 < limit ∧ (buffer.held memory.ram).code.isBusy = false then
        some (buffer.held memory.ram)
      else none := by
  rw [fetched, run_fetch memory.run_readRam]

section
variable (buffer : Buffer) (message : Message) (code : BufferCode) (memory : Memory)

def stored : Memory :=
  memory.writeAll (ramOffset buffer.controlWord) (buffer.image message code)

theorem ram_stored {place : Nat} (within : place < (buffer.image message code).length) :
    (buffer.stored message code memory).ram (buffer.controlWord + place) =
      (buffer.image message code)[place] := by
  have room := buffer.controlWord_add_bufferWords_le
  have short := buffer.length_image_le message code
  simp only [ramWords] at room
  exact memory.ram_writeAll_inside _ _ _ within (by omega)

theorem exists_place_of_read_stored_ne {offset : Nat}
    (changed : (buffer.stored message code memory).read offset ≠ memory.read offset) :
    ∃ place < buffer.size.bufferWords, buffer.controlWord + place < ramWords ∧
      offset / 4 = ramOffset (buffer.controlWord + place) / 4 := by
  have room := buffer.controlWord_add_bufferWords_le
  have short := buffer.length_image_le message code
  have inside : ramOffset buffer.controlWord / 4 ≤ offset / 4 ∧
      offset / 4 < ramOffset buffer.controlWord / 4 + (buffer.image message code).length := by
    apply Decidable.byContradiction
    intro outside
    exact changed (memory.writeAll_of_outside _ _ _ (by omega))
  simp only [ramOffset] at inside ⊢
  exact ⟨offset / 4 - 32 - buffer.controlWord, by omega, by omega, by omega⟩

theorem ram_stored_of_other {other : Buffer} (size : other.size = buffer.size)
    (index : other.index ≠ buffer.index) {place : Nat} (within : place < other.size.bufferWords) :
    (buffer.stored message code memory).ram (other.controlWord + place) =
      memory.ram (other.controlWord + place) := by
  have short := buffer.length_image_le message code
  have apart := Buffer.apart size index (Nat.le_add_right _ place) (by omega)
  exact memory.ram_writeAll_outside _ _ _ (by omega)

theorem fetched_stored {draft : Draft} (encoded : draft.encode? = some message) (bits limit : Nat) :
    buffer.fetched limit (buffer.stored message (.ofBits bits) memory) =
      if 0 < limit ∧ (BufferCode.ofBits bits).isBusy = false then
        some (message.readBack buffer.size (BufferCode.ofBits bits).toBits 0)
      else none := by
  have untimed := (Draft.encodes encoded).timestamp
  have held := buffer.held_of_image message (.ofBits bits)
    (fun _ within => buffer.ram_stored message (.ofBits bits) memory within) untimed
  rw [fetched_eq, held, message.code_readBack]

end

/-- A message that is stored in a buffer of plain memory is fetched again, as far as there is room for
it, unless it was stored as one that is still being filled in. No other buffer is touched. -/
theorem store_then_fetch (buffer : Buffer) {draft : Draft} {message : Message}
    (encoded : draft.encode? = some message) (bits : Nat) (memory : Memory) :
    ∃ after, (buffer.store message (.ofBits bits)).run Memory.access memory = ((), after) ∧
      buffer.Holds message (.ofBits bits) memory after := by
  refine ⟨buffer.stored message (.ofBits bits) memory, buffer.run_store message _ memory, ?_, ?_, ?_, ?_⟩
  · intro limit positive
    rw [buffer.fetched_stored message memory encoded]
    simp [positive]
  · intro limit positive taken found
    rw [buffer.fetched_stored message memory encoded] at found
    split at found
    next =>
      obtain rfl := Option.some.inj found
      exact ⟨message.sameFrame_readBack _ _ _, message.code_readBack _ _ _,
        message.timestamp_readBack _ _ _,
        message.data_readBack _ _ _ (Draft.capacity_of_encode? encoded)⟩
    next => cases found
  · intro offset changed
    exact buffer.exists_place_of_read_stored_ne message _ memory changed
  · intro other size index
    have kept (place : Nat) (within : place < other.size.bufferWords) :=
      buffer.ram_stored_of_other message (.ofBits bits) memory size index within
    have same := other.held_congr kept
    refine ⟨kept, ?_, ?_⟩
    · rw [run_readCode (Memory.run_readRam _), run_readCode (Memory.run_readRam _), same]
    · intro limit
      rw [fetched_eq, fetched_eq, same]

theorem store_then_fetch_thirteen : ∃ (buffer : Buffer) (message : Message) (after : Memory),
    buffer.size = .bytes8 ∧ buffer.index = 31 ∧ Draft.thirteen.encode? = some message ∧
      (buffer.store message (.ofBits 2)).run Memory.access .zero = ((), after) ∧
      ∃ taken, buffer.fetched 1 after = some taken ∧ taken.code = .rxFull ∧ taken.length = 16 ∧
        taken.data = [1, 2, 3, 4, 5, 6, 7, 8] := by
  let buffer : Buffer := ⟨.bytes8, 31, by decide⟩
  obtain ⟨message, encoded⟩ : ∃ message, Draft.thirteen.encode? = some message := ⟨_, rfl⟩
  obtain ⟨after, storing, holds⟩ := buffer.store_then_fetch encoded 2 .zero
  cases fetched : buffer.fetched 1 after with
  | none => cases (holds.busy 1 (by decide)).1 fetched
  | some taken =>
      obtain ⟨same, code, -, data⟩ := holds.found 1 (by decide) taken fetched
      obtain rfl := Option.some.inj encoded
      exact ⟨buffer, _, after, rfl, rfl, encoded, storing, taken, fetched, code, same.length, data⟩

end Buffer

end BufferedCan
