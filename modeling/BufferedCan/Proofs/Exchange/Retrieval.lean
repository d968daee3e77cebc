import BufferedCan.Proofs.Exchange.Footprint
import BufferedCan.Proofs.Frame.Decoding

/-! What taking a message asks of a controller that may show anything. The flag is looked at first.
Only if it is raised is the receive buffer read, its control word until it shows that the controller
has finished with it, and only if that comes in time is the buffer unlocked and the flag cleared. -/

namespace BufferedCan

def Busy (control : UInt32) : Prop :=
  (BufferCode.ofBits ((control.toNat >>> 24) % 16)).isBusy = true

theorem isBusy_iff (control : UInt32) :
    (BufferCode.ofBits (MbCs.code.get control)).isBusy = true ↔ Busy control := Iff.rfl

/-- What looks at the control word end in: the first word that is not busy, or nothing if as many
looks as there may be showed none. -/
def Awaits (limit : Nat) (shown : List UInt32) : Option UInt32 → Prop
  | none => shown.length = limit ∧ ∀ control ∈ shown, Busy control
  | some control => ∃ early, shown = early ++ [control] ∧ early.length < limit ∧
      (∀ other ∈ early, Busy other) ∧ ¬Busy control

namespace Awaits

variable {limit : Nat} {shown : List UInt32} {control : UInt32} {outcome : Option UInt32}

theorem zero_iff : Awaits 0 shown outcome ↔ shown = [] ∧ outcome = none := by
  cases outcome with
  | none =>
      constructor
      · rintro ⟨exhausted, -⟩
        exact ⟨List.length_eq_zero_iff.1 exhausted, rfl⟩
      · rintro ⟨rfl, -⟩
        exact ⟨rfl, nofun⟩
  | some control =>
      constructor
      · rintro ⟨early, -, few, -⟩
        exact absurd few (Nat.not_lt_zero _)
      · rintro ⟨-, same⟩
        cases same

theorem not_nil : ¬Awaits (limit + 1) [] outcome := by
  cases outcome with
  | none =>
      rintro ⟨exhausted, -⟩
      cases exhausted
  | some control =>
      rintro ⟨early, split, -⟩
      simp at split

theorem cons_iff_of_busy (busy : Busy control) :
    Awaits (limit + 1) (control :: shown) outcome ↔ Awaits limit shown outcome := by
  cases outcome with
  | none =>
      constructor
      · rintro ⟨exhausted, all⟩
        exact ⟨Nat.succ.inj exhausted, fun other member => all other (.tail _ member)⟩
      · rintro ⟨exhausted, all⟩
        exact ⟨congrArg (· + 1) exhausted, List.forall_mem_cons.2 ⟨busy, all⟩⟩
  | some found =>
      constructor
      · rintro ⟨early, split, few, all, ready⟩
        cases early with
        | nil =>
            obtain ⟨rfl, -⟩ := List.cons.inj split
            exact absurd busy ready
        | cons first early =>
            obtain ⟨rfl, rfl⟩ := List.cons.inj split
            exact ⟨early, rfl, Nat.lt_of_succ_lt_succ few,
              fun other member => all other (.tail _ member), ready⟩
      · rintro ⟨early, rfl, few, all, ready⟩
        exact ⟨control :: early, rfl, Nat.succ_lt_succ few, List.forall_mem_cons.2 ⟨busy, all⟩,
          ready⟩

theorem cons_iff_of_ready (ready : ¬Busy control) :
    Awaits (limit + 1) (control :: shown) outcome ↔ shown = [] ∧ outcome = some control := by
  cases outcome with
  | none =>
      constructor
      · rintro ⟨-, all⟩
        exact absurd (all control List.mem_cons_self) ready
      · rintro ⟨-, same⟩
        cases same
  | some found =>
      constructor
      · rintro ⟨early, split, -, all, -⟩
        cases early with
        | nil =>
            obtain ⟨rfl, rfl⟩ := List.cons.inj split
            exact ⟨rfl, rfl⟩
        | cons first early =>
            obtain ⟨rfl, rfl⟩ := List.cons.inj split
            exact absurd (all control List.mem_cons_self) ready
      · rintro ⟨rfl, same⟩
        cases same
        exact ⟨[], rfl, Nat.succ_pos _, nofun, ready⟩

end Awaits

namespace Buffer

variable {buffer : Buffer} {limit : Nat} {trace : List (Event registers)}

theorem runs_awaitControl_iff {outcome : Option UInt32} :
    (buffer.awaitControl limit).Runs trace outcome ↔
      ∃ shown, trace = shown.map buffer.look ∧ Awaits limit shown outcome := by
  induction limit generalizing trace with
  | zero =>
      rw [awaitControl, Program.runs_done_iff]
      simp only [Awaits.zero_iff]
      constructor
      · rintro ⟨rfl, rfl⟩
        exact ⟨[], rfl, rfl, rfl⟩
      · rintro ⟨shown, rfl, rfl, rfl⟩
        exact ⟨rfl, rfl⟩
  | succ limit ih =>
      rw [awaitControl, Program.runs_bind_iff]
      constructor
      · rintro ⟨first, rest, control, rfl, look, ran⟩
        obtain rfl := runs_readWord_iff.1 look
        split at ran
        next busy =>
          rw [isBusy_iff] at busy
          obtain ⟨shown, rfl, awaits⟩ := ih.1 ran
          exact ⟨control :: shown, rfl, (Awaits.cons_iff_of_busy busy).2 awaits⟩
        next ready =>
          rw [isBusy_iff] at ready
          obtain ⟨rfl, rfl⟩ := Program.runs_done_iff.1 ran
          exact ⟨[control], rfl, (Awaits.cons_iff_of_ready ready).2 ⟨rfl, rfl⟩⟩
      · rintro ⟨shown, rfl, awaits⟩
        cases shown with
        | nil => exact absurd awaits Awaits.not_nil
        | cons control shown =>
            refine ⟨_, shown.map buffer.look, control, rfl, runs_readWord_iff.2 rfl, ?_⟩
            split
            next busy =>
              rw [isBusy_iff] at busy
              exact ih.2 ⟨shown, rfl, (Awaits.cons_iff_of_busy busy).1 awaits⟩
            next ready =>
              rw [isBusy_iff] at ready
              obtain ⟨rfl, rfl⟩ := (Awaits.cons_iff_of_ready ready).1 awaits
              exact .done _

end Buffer

/-! Reading what the buffer holds. -/

theorem runs_collect_readWord_iff {α : Type} {values : List α} {place : α → Nat}
    {trace : List (Event registers)} {words : List UInt32} :
    (Program.collect values fun value => readWord (place value)).Runs trace words ↔
      words.length = values.length ∧
        trace = List.zipWith (fun value word => ⟨.read (place value), word⟩) values words := by
  induction values generalizing trace words with
  | nil =>
      rw [Program.collect, Program.runs_done_iff]
      constructor
      · rintro ⟨rfl, rfl⟩
        exact ⟨rfl, rfl⟩
      · rintro ⟨none, rfl⟩
        exact ⟨rfl, List.length_eq_zero_iff.1 none⟩
  | cons value rest ih =>
      rw [Program.collect, Program.runs_bind_iff]
      constructor
      · rintro ⟨look, later, word, rfl, looked, ran⟩
        obtain rfl := runs_readWord_iff.1 looked
        obtain ⟨looks, nothing, others, rfl, collected, ended⟩ := Program.runs_bind_iff.1 ran
        obtain ⟨rfl, rfl⟩ := Program.runs_done_iff.1 ended
        obtain ⟨count, rfl⟩ := ih.1 collected
        exact ⟨congrArg (· + 1) count, by rw [List.append_nil]; rfl⟩
      · rintro ⟨count, rfl⟩
        cases words with
        | nil => cases count
        | cons word others =>
            refine ⟨_, _, word, rfl, runs_readWord_iff.2 rfl, Program.runs_bind_iff.2 ?_⟩
            have collected := ih.2 ⟨Nat.succ.inj count, rfl⟩
            exact ⟨_, [], others, (List.append_nil _).symm, collected, .done _⟩

theorem zipWith_range {α β : Type} (place : Nat → α → β) (words : List α) :
    List.zipWith place (List.range words.length) words = words.mapIdx place := by
  apply List.ext_getElem
  · rw [List.length_zipWith, List.length_range, List.length_mapIdx, Nat.min_self]
  · intro number _ _
    rw [List.getElem_zipWith, List.getElem_range, List.getElem_mapIdx]

namespace Buffer

variable {buffer : Buffer} {limit : Nat} {trace : List (Event registers)}

def payloadLooks (buffer : Buffer) (words : List UInt32) : List (Event registers) :=
  words.mapIdx fun number word => ⟨.read (ramOffset (buffer.payloadWord number)), word⟩

def identLook (buffer : Buffer) (ident : UInt32) : Event registers :=
  ⟨.read (ramOffset buffer.identWord), ident⟩

theorem runs_fetch_iff {outcome : Option Message} :
    (buffer.fetch limit).Runs trace outcome ↔
      (∃ shown, trace = shown.map buffer.look ∧ Awaits limit shown none ∧ outcome = none) ∨
      ∃ shown control ident words,
        trace = shown.map buffer.look ++ buffer.identLook ident :: buffer.payloadLooks words ∧
        Awaits limit shown (some control) ∧
        words.length = min ((Length.ofControl control + 3) / 4) buffer.size.payloadWords ∧
        outcome = some (.ofWords buffer.size control ident words) := by
  rw [fetch, Program.runs_bind_iff]
  constructor
  · rintro ⟨looks, rest, found, rfl, waited, ran⟩
    obtain ⟨shown, rfl, awaits⟩ := runs_awaitControl_iff.1 waited
    cases found with
    | none =>
        obtain ⟨rfl, rfl⟩ := Program.runs_done_iff.1 ran
        exact .inl ⟨shown, List.append_nil _, awaits, rfl⟩
    | some control =>
        obtain ⟨named, filled, ident, rfl, look, onward⟩ := Program.runs_bind_iff.1 ran
        obtain rfl := runs_readWord_iff.1 look
        obtain ⟨payload, nothing, words, rfl, collected, ended⟩ := Program.runs_bind_iff.1 onward
        obtain ⟨rfl, rfl⟩ := Program.runs_done_iff.1 ended
        obtain ⟨count, rfl⟩ := runs_collect_readWord_iff.1 collected
        rw [List.length_range] at count
        refine .inr ⟨shown, control, ident, words, ?_, awaits, ?_, rfl⟩
        · rw [← count, zipWith_range, List.append_nil]
          rfl
        · rw [count, Message.wordCount, Message.length_eq_ofControl]
  · rintro (⟨shown, rfl, awaits, rfl⟩ | ⟨shown, control, ident, words, rfl, awaits, count, rfl⟩)
    · exact ⟨_, [], none, (List.append_nil _).symm, runs_awaitControl_iff.2 ⟨shown, rfl, awaits⟩,
        .done _⟩
    · refine ⟨_, _, some control, rfl, runs_awaitControl_iff.2 ⟨shown, rfl, awaits⟩, ?_⟩
      refine Program.runs_bind_iff.2 ⟨_, _, ident, rfl, runs_readWord_iff.2 rfl, ?_⟩
      refine Program.runs_bind_iff.2 ⟨_, [], words, (List.append_nil _).symm, ?_, .done _⟩
      refine runs_collect_readWord_iff.2 ⟨?_, ?_⟩
      · rw [List.length_range, count, Message.wordCount, Message.length_eq_ofControl]
      · rw [Message.wordCount, Message.length_eq_ofControl, ← count, zipWith_range]

end Buffer

/-! Taking a message. -/

namespace Settings

def look (settings : Settings) (place : Nat) (shown : UInt32) : Event registers :=
  ⟨.read (ramOffset (settings.buffers.receive * settings.mode.dataSize.bufferWords + place)), shown⟩

/-- The flag is not raised, or the buffer is busy at every look, or a message is taken. -/
inductive Retrieval (settings : Settings) : List (Event registers) → Option Message → Prop
  | nothing {flags : UInt32} (lowered : flagSet settings.buffers.receive flags = false) :
      Retrieval settings [⟨.read Register.iflag1.offset, flags⟩] none
  | waiting {flags : UInt32} {shown : List UInt32}
      (raised : flagSet settings.buffers.receive flags = true)
      (awaits : Awaits settings.pollLimit shown none) :
      Retrieval settings (⟨.read Register.iflag1.offset, flags⟩ :: shown.map (settings.look 0)) none
  | taken {flags : UInt32} {shown : List UInt32} {control ident time : UInt32}
      {words : List UInt32} {message : Message}
      (raised : flagSet settings.buffers.receive flags = true)
      (awaits : Awaits settings.pollLimit shown (some control))
      (count : words.length = min ((Length.ofControl control + 3) / 4) (settings.mode.dataSize.bytes / 4))
      (made : message = .ofWords settings.mode.dataSize control ident words)
      (said : message.reading = .ofWords settings.mode.dataSize.bytes control ident words) :
      Retrieval settings
        (⟨.read Register.iflag1.offset, flags⟩ :: (shown.map (settings.look 0) ++
          settings.look 1 ident :: words.mapIdx (fun number word => settings.look (2 + number) word) ++
          [⟨.read Register.timer.offset, time⟩,
            ⟨.write Register.iflag1.offset (flagWord settings.buffers.receive), ()⟩]))
        (some message)

end Settings

namespace Running

variable {running : Running} {trace : List (Event registers)}

theorem Sound.look_eq (sound : running.Sound) : running.receiveBuffer.look = running.settings.look 0 := by
  funext control
  rw [Buffer.look, Settings.look, Buffer.controlWord, sound.buffers.receiveIndex,
    sound.buffers.receiveSize, Nat.add_zero]

theorem Sound.identLook_eq (sound : running.Sound) :
    running.receiveBuffer.identLook = running.settings.look 1 := by
  funext ident
  rw [Buffer.identLook, Settings.look, Buffer.identWord, Buffer.controlWord,
    sound.buffers.receiveIndex, sound.buffers.receiveSize]

theorem Sound.payloadLooks_eq (sound : running.Sound) (words : List UInt32) :
    running.receiveBuffer.payloadLooks words =
      words.mapIdx fun number word => running.settings.look (2 + number) word := by
  rw [Buffer.payloadLooks]
  congr 1
  funext number word
  rw [Settings.look, Buffer.payloadWord, Buffer.controlWord, sound.buffers.receiveIndex,
    sound.buffers.receiveSize, Nat.add_assoc]

theorem runs_receive_iff (sound : running.Sound) {outcome : Option Message} :
    running.receive.Runs trace outcome ↔ running.settings.Retrieval trace outcome := by
  have four : running.receiveBuffer.size.payloadWords = running.settings.mode.dataSize.bytes / 4 := by
    rw [sound.buffers.receiveSize, DataSize.payloadWords]
  rw [receive, Program.runs_bind_iff, sound.buffers.receiveIndex]
  constructor
  · rintro ⟨first, rest, flags, rfl, look, ran⟩
    obtain rfl := runs_readWord_iff.1 look
    split at ran
    next raised =>
      obtain ⟨fetched, last, found, rfl, fetching, onward⟩ := Program.runs_bind_iff.1 ran
      rcases Buffer.runs_fetch_iff.1 fetching with
        ⟨shown, rfl, awaits, rfl⟩ | ⟨shown, control, ident, words, rfl, awaits, count, rfl⟩
      · obtain ⟨rfl, rfl⟩ := Program.runs_done_iff.1 onward
        rw [List.append_nil, sound.look_eq]
        exact .waiting raised awaits
      · obtain ⟨unlock, cleared, time, rfl, unlocked, tail⟩ := Program.runs_bind_iff.1 onward
        obtain rfl := runs_readWord_iff.1 unlocked
        obtain ⟨clear, nothing, _, rfl, wrote, ended⟩ := Program.runs_bind_iff.1 tail
        obtain rfl := runs_writeWord_iff.1 wrote
        obtain ⟨rfl, rfl⟩ := Program.runs_done_iff.1 ended
        rw [four] at count
        rw [sound.look_eq, sound.identLook_eq, sound.payloadLooks_eq, sound.buffers.receiveSize]
        exact .taken raised awaits count rfl (Message.reading_ofWords _ _ _ count)
    next lowered =>
      obtain ⟨rfl, rfl⟩ := Program.runs_done_iff.1 ran
      exact .nothing (Bool.not_eq_true _ ▸ lowered)
  · intro retrieval
    cases retrieval with
    | @nothing flags lowered =>
        refine ⟨_, [], flags, rfl, runs_readWord_iff.2 rfl, ?_⟩
        rw [lowered]
        exact .done _
    | @waiting flags shown raised awaits =>
        refine ⟨_, _, flags, rfl, runs_readWord_iff.2 rfl, ?_⟩
        rw [if_pos raised, ← sound.look_eq]
        have fetched : (running.receiveBuffer.fetch running.settings.pollLimit).Runs
            (shown.map running.receiveBuffer.look) none :=
          Buffer.runs_fetch_iff.2 (.inl ⟨shown, rfl, awaits, rfl⟩)
        exact Program.runs_bind_iff.2 ⟨_, [], none, (List.append_nil _).symm, fetched, .done _⟩
    | @taken flags shown control ident time words message raised awaits count made said =>
        refine ⟨_, _, flags, rfl, runs_readWord_iff.2 rfl, ?_⟩
        rw [if_pos raised, ← sound.look_eq, ← sound.identLook_eq, ← sound.payloadLooks_eq]
        rw [← four] at count
        rw [← sound.buffers.receiveSize] at made
        have fetched := Buffer.runs_fetch_iff.2
          (.inr ⟨shown, control, ident, words, rfl, awaits, count, rfl⟩)
        refine Program.runs_bind_iff.2 ⟨_, _, _, rfl, fetched, ?_⟩
        refine Program.runs_bind_iff.2 ⟨_, _, time, rfl, runs_readWord_iff.2 rfl, ?_⟩
        have cleared : (Register.iflag1.write (flagWord running.settings.buffers.receive)).Runs
            [⟨.write Register.iflag1.offset (flagWord running.settings.buffers.receive), ()⟩] () :=
          runs_writeWord_iff.2 rfl
        refine Program.runs_bind_iff.2 ⟨_, [], (), (List.append_nil _).symm, cleared, ?_⟩
        rw [made]
        exact .done _

theorem keeps_wire_of_none (sound : running.Sound) {node : Nat} {wire : Wire}
    (none : (running.receive.run (Wire.access node) wire).1 = none) :
    (running.receive.run (Wire.access node) wire).2 = wire := by
  have ran := running.receive.runs_trace (Wire.access node) wire
  rw [none] at ran
  apply Program.run_keeps id
  intro event member before
  generalize running.receive.trace (Wire.access node) wire = trace at ran member
  cases (runs_receive_iff sound).1 ran with
  | nothing lowered =>
      obtain rfl := List.mem_singleton.1 member
      exact Wire.keeps_read (by decide) node before
  | waiting raised awaits =>
      rcases List.mem_cons.1 member with rfl | later
      · exact Wire.keeps_read (by decide) node before
      · obtain ⟨shown, -, rfl⟩ := List.mem_map.1 later
        exact Wire.keeps_read (ramOffset_ne_timer _) node before

end Running

/-- Whatever a controller was set up on and whatever it shows: a message is taken in these steps and no
others, it says what the words say that were read, and if there is none to take everything stays as it
is. -/
theorem retrievals_ordered {frozen : Frozen} {running : Running} {setup : List (Event registers)}
    (made : frozen.start.Runs setup (.ok (.ok running))) :
    (∀ trace outcome,
      running.receive.Runs trace outcome ↔ running.settings.Retrieval trace outcome) ∧
    ∀ (node : Nat) (wire : Wire), (running.receive.run (Wire.access node) wire).1 = none →
      (running.receive.run (Wire.access node) wire).2 = wire := by
  have sound := Frozen.sound_of_start made
  constructor
  · intro trace outcome
    exact Running.runs_receive_iff sound
  · intro node wire none
    exact Running.keeps_wire_of_none sound none

namespace Blank

/-- A controller that finishes storing a frame of twelve bytes when its control word has been looked at
once, and has room for eight of them. -/
def storing : Handler registers Nat
  | .read offset, looks =>
    if offset = Register.iflag1.offset then (flagWord 4, looks)
    else if offset = ramOffset 16 then (if looks = 0 then 0x83290000 else 0x82290007, looks + 1)
    else if offset = ramOffset 17 then (0x12345678, looks)
    else if offset = ramOffset 18 then (0x01020304, looks)
    else if offset = ramOffset 19 then (0x05060708, looks)
    else (0, looks)
  | .write _ _, looks => ((), looks)

def stored : Message := .ofWords .bytes8 0x82290007 0x12345678 [0x01020304, 0x05060708]

theorem retrievals_ordered_truncated : ∃ running,
    frozen.start.Runs (frozen.start.trace storing 0) (.ok (.ok running)) ∧
    running.settings.Retrieval (running.receive.trace storing 0) (some stored) ∧
    (running.receive.trace storing 0).length = 8 ∧ stored.id = .extended 0x12345678 ∧
    stored.data = [1, 2, 3, 4, 5, 6, 7, 8] ∧ stored.length = 12 ∧ stored.truncated = true := by
  have made := Program.runs_trace storing frozen.start 0
  refine ⟨_, made, ?_, rfl, rfl, rfl, rfl, rfl⟩
  exact ((retrievals_ordered made).1 _ _).1 (Program.runs_trace storing _ 0)

end Blank

end BufferedCan
