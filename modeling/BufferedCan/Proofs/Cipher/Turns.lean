import BufferedCan.Proofs.Cipher.Operations
import BufferedCan.Proofs.Program.Runs

/-! What an operation exchanges with an engine that may reply anything. Every chunk is a turn of its
own: software writes the data and the header, asks for completion a bounded number of times, reads
the status and, if that is in order, what the engine has left in place of the data. The first turn
that fails is the last one, and the output buffer shows how far the operation came. -/

namespace BufferedCan

/-! Accesses to the window in a row. -/

def written (word : Nat) : List UInt32 → List (Event commandWindow)
  | [] => []
  | value :: rest => ⟨.write word value, ()⟩ :: written (word + 1) rest

def fetched (word : Nat) : List UInt32 → List (Event commandWindow)
  | [] => []
  | value :: rest => ⟨.read word, value⟩ :: fetched (word + 1) rest

def asked (answers : List Bool) : List (Event commandWindow) :=
  answers.map fun complete => ⟨.isComplete, complete⟩

def reported : Option UInt32 → List (Event commandWindow)
  | none => []
  | some status => [⟨.read 1, status⟩]

theorem written_append (word : Nat) (first second : List UInt32) :
    written word (first ++ second) =
      written word first ++ written (word + first.length) second := by
  induction first generalizing word with
  | nil => rfl
  | cons value rest ih =>
      rw [List.cons_append, written, ih, written, List.cons_append, List.length_cons,
        Nat.add_assoc, Nat.add_comm 1]

/-- How a command was seen to end: it reports to be complete in good time, and its status has no
error or one; or it never reports to be complete. -/
inductive Ends (limit : Nat) :
    (answers : List Bool) → (status : Option UInt32) → Except CipherError Unit → Prop
  | completed {late : Nat} {status : UInt32} (patient : late < max 1 limit)
      (fine : status.toNat / 0x10000 = 1) :
      Ends limit (List.replicate late false ++ [true]) (some status) (.ok ())
  | refused {late : Nat} {status : UInt32} {error : CipherError} (patient : late < max 1 limit)
      (decoded : CipherError.ofStatus? (status.toNat / 0x10000) = some error) :
      Ends limit (List.replicate late false ++ [true]) (some status) (.error error)
  | expired : Ends limit (List.replicate (max 1 limit) false) none (.error .timeout)

namespace CipherError

theorem ofStatus?_eq_none_iff {status : Nat} : ofStatus? status = none ↔ status = 1 := by
  constructor
  · intro fine
    unfold ofStatus? at fine
    split at fine <;> first | rfl | cases fine
  · rintro rfl
    rfl

theorem ofStatus?_timeout (status : Nat) : ofStatus? status ≠ some timeout := by
  unfold ofStatus?
  split <;> simp

theorem ofStatus?_invalidLength (status : Nat) : ofStatus? status ≠ some invalidLength := by
  unfold ofStatus?
  split <;> simp

end CipherError

namespace Ends

variable {limit : Nat} {answers : List Bool} {status : Option UInt32}
  {result : Except CipherError Unit}

theorem length_le (ends : Ends limit answers status result) : answers.length ≤ max 1 limit := by
  cases ends with
  | completed patient fine =>
      rw [List.length_append, List.length_replicate, List.length_singleton]
      omega
  | refused patient decoded =>
      rw [List.length_append, List.length_replicate, List.length_singleton]
      omega
  | expired => exact Nat.le_of_eq List.length_replicate

theorem timeout_iff (ends : Ends limit answers status result) :
    result = .error .timeout ↔ answers = List.replicate (max 1 limit) false := by
  have answered (late count : Nat) :
      List.replicate late false ++ [true] ≠ List.replicate count false := by
    intro same
    have member : true ∈ List.replicate count false := by
      rw [← same]
      exact List.mem_append_right _ List.mem_cons_self
    exact absurd (List.eq_of_mem_replicate member) (by decide)
  cases ends with
  | completed patient fine => exact iff_of_false nofun (answered _ _)
  | @refused late status error patient decoded =>
      refine iff_of_false ?_ (answered _ _)
      rintro ⟨⟩
      exact CipherError.ofStatus?_timeout _ decoded
  | expired => exact iff_of_true rfl rfl

theorem ne_invalidLength (ends : Ends limit answers status result) :
    result ≠ .error .invalidLength := by
  rintro rfl
  cases ends with
  | refused patient decoded => exact CipherError.ofStatus?_invalidLength _ decoded

end Ends

/-- One command. The data follows the start value of a chained operation, if it is the first command
of one, and comes back in the same place. -/
structure CipherTurn where
  start : List UInt32
  data : List UInt32
  header : UInt32
  answers : List Bool
  status : Option UInt32
  words : List UInt32

namespace CipherTurn

def accesses (turn : CipherTurn) : List (Event commandWindow) :=
  written 4 (turn.start ++ turn.data) ++ ⟨.write 0 turn.header, ()⟩ ::
    (asked turn.answers ++ reported turn.status ++ fetched (4 + turn.start.length) turn.words)

def bytes (turns : List CipherTurn) : List UInt8 := Word.unpackAll (turns.flatMap words)

theorem bytes_cons (turn : CipherTurn) (turns : List CipherTurn) :
    bytes (turn :: turns) = Word.unpackAll turn.words ++ bytes turns := by
  rw [bytes, List.flatMap_cons, Word.unpackAll_append]
  rfl

end CipherTurn

/-- One turn for each chunk, up to the first that fails. Only the first turn has a start value. -/
inductive Course (limit : Nat) (command : CipherCommand) (slot : KeySlot) :
    Sequence → (start : List UInt32) → (chunks : List (List UInt8)) → List CipherTurn →
      Except CipherError Unit → Prop
  | finished {sequence : Sequence} : Course limit command slot sequence [] [] [] (.ok ())
  | onward {sequence : Sequence} {start words : List UInt32} {chunk : List UInt8}
      {more : List (List UInt8)} {answers : List Bool} {status : Option UInt32}
      {turns : List CipherTurn} {result : Except CipherError Unit}
      (ended : Ends limit answers status (.ok ()))
      (whole : words.length = chunk.length / 4)
      (rest : Course limit command slot .subsequent [] more turns result) :
      Course limit command slot sequence start (chunk :: more)
        (⟨start, Word.packAll chunk, commandHeader command sequence slot, answers, status, words⟩ ::
          turns) result
  | stopped {sequence : Sequence} {start : List UInt32} {chunk : List UInt8}
      {more : List (List UInt8)} {answers : List Bool} {status : Option UInt32}
      {error : CipherError} (ended : Ends limit answers status (.error error)) :
      Course limit command slot sequence start (chunk :: more)
        [⟨start, Word.packAll chunk, commandHeader command sequence slot, answers, status, []⟩]
        (.error error)

namespace Course

variable {limit : Nat} {command : CipherCommand} {slot : KeySlot} {sequence : Sequence}
  {start : List UInt32} {chunks : List (List UInt8)} {turns : List CipherTurn}
  {result : Except CipherError Unit}

theorem length_answers_le (course : Course limit command slot sequence start chunks turns result) :
    ∀ turn ∈ turns, turn.answers.length ≤ max 1 limit := by
  induction course with
  | finished => simp
  | onward ended _ _ ih => exact List.forall_mem_cons.2 ⟨ended.length_le, ih⟩
  | stopped ended => exact List.forall_mem_cons.2 ⟨ended.length_le, by simp⟩

theorem timeout_iff (course : Course limit command slot sequence start chunks turns result) :
    result = .error .timeout ↔
      ∃ turn ∈ turns, turn.answers = List.replicate (max 1 limit) false := by
  induction course with
  | finished => simp
  | onward ended _ _ ih =>
      have answered := mt ended.timeout_iff.2 nofun
      simp only [ih, List.mem_cons, exists_eq_or_imp]
      constructor
      · exact .inr
      · rintro (never | later)
        · exact absurd never answered
        · exact later
  | stopped ended => simpa using ended.timeout_iff

theorem ne_invalidLength (course : Course limit command slot sequence start chunks turns result) :
    result ≠ .error .invalidLength := by
  induction course with
  | finished => nofun
  | onward _ _ _ ih => exact ih
  | stopped ended => exact ended.ne_invalidLength

theorem length_bytes_le (course : Course limit command slot sequence start chunks turns result)
    (whole : ∀ chunk ∈ chunks, chunk.length % 4 = 0) :
    (CipherTurn.bytes turns).length ≤ chunks.flatten.length ∧
      (result = .ok () → (CipherTurn.bytes turns).length = chunks.flatten.length) := by
  induction course with
  | finished => exact ⟨Nat.le_refl 0, fun _ => rfl⟩
  | @onward _ _ words chunk _ _ _ _ _ _ back _ ih =>
      obtain ⟨quads, others⟩ := List.forall_mem_cons.1 whole
      obtain ⟨less, all⟩ := ih others
      have own : (Word.unpackAll words).length = chunk.length := by
        rw [Word.length_unpackAll, back]
        omega
      rw [CipherTurn.bytes_cons, List.flatten_cons, List.length_append, List.length_append, own]
      refine ⟨by omega, fun succeeded => ?_⟩
      rw [all succeeded]
  | stopped ended => exact ⟨Nat.zero_le _, nofun⟩

end Course

namespace CipherClient

variable {limit : Nat} {command : CipherCommand} {slot : KeySlot}
  {trace : List (Event commandWindow)}

theorem runs_writeWords {word : Nat} {values : List UInt32}
    (ran : (writeWords word values).Runs trace ()) : trace = written word values := by
  induction values generalizing word trace with
  | nil => exact (Program.runs_done_iff.1 ran).1
  | cons value rest ih =>
      obtain ⟨first, second, _, rfl, wrote, others⟩ := Program.runs_bind_iff.1 ran
      rw [Program.runs_call_iff.1 wrote, ih others]
      rfl

theorem runs_readWords {word count : Nat} {values : List UInt32}
    (ran : (readWords word count).Runs trace values) :
    trace = fetched word values ∧ values.length = count := by
  induction count generalizing word trace values with
  | zero =>
      obtain ⟨rfl, rfl⟩ := Program.runs_done_iff.1 ran
      exact ⟨rfl, rfl⟩
  | succ count ih =>
      obtain ⟨first, later, value, rfl, read, onward⟩ := Program.runs_bind_iff.1 ran
      obtain ⟨middle, last, rest, rfl, others, ended⟩ := Program.runs_bind_iff.1 onward
      obtain ⟨rfl, rfl⟩ := Program.runs_done_iff.1 ended
      obtain ⟨rfl, rfl⟩ := ih others
      rw [Program.runs_call_iff.1 read, List.append_nil]
      exact ⟨rfl, rfl⟩

theorem runs_awaitCompletion {more : Nat} {complete : Bool}
    (ran : (awaitCompletion more).Runs trace complete) :
    complete = true ∧ (∃ late ≤ more, trace = asked (List.replicate late false ++ [true])) ∨
      complete = false ∧ trace = asked (List.replicate (more + 1) false) := by
  induction more generalizing trace with
  | zero =>
      obtain rfl := Program.runs_call_iff.1 ran
      cases complete with
      | true => exact .inl ⟨rfl, 0, Nat.le_refl 0, rfl⟩
      | false => exact .inr ⟨rfl, rfl⟩
  | succ more ih =>
      obtain ⟨first, rest, answer, rfl, question, onward⟩ := Program.runs_bind_iff.1 ran
      obtain rfl := Program.runs_call_iff.1 question
      cases answer with
      | true =>
          obtain ⟨rfl, rfl⟩ := Program.runs_done_iff.1 onward
          exact .inl ⟨rfl, 0, Nat.zero_le _, rfl⟩
      | false =>
          rcases ih onward with ⟨rfl, late, early, rfl⟩ | ⟨rfl, rfl⟩
          · exact .inl ⟨rfl, late + 1, Nat.succ_le_succ early, rfl⟩
          · exact .inr ⟨rfl, rfl⟩

theorem runs_execute {sequence : Sequence} {result : Except CipherError Unit}
    (ran : (execute limit command sequence slot).Runs trace result) :
    ∃ answers status, trace = ⟨.write 0 (commandHeader command sequence slot), ()⟩ ::
        (asked answers ++ reported status) ∧ Ends limit answers status result := by
  have patience : limit - 1 + 1 = max 1 limit := by omega
  obtain ⟨first, later, _, rfl, wrote, begun⟩ := Program.runs_bind_iff.1 ran
  obtain rfl := Program.runs_call_iff.1 wrote
  obtain ⟨waited, rest, complete, rfl, waiting, ended⟩ := Program.runs_bind_iff.1 begun
  rcases runs_awaitCompletion waiting with ⟨rfl, late, early, rfl⟩ | ⟨rfl, rfl⟩
  · obtain ⟨look, last, status, rfl, read, judged⟩ := Program.runs_bind_iff.1 ended
    obtain rfl := Program.runs_call_iff.1 read
    have prompt : late < max 1 limit := by omega
    refine ⟨List.replicate late false ++ [true], some status, ?_⟩
    split at judged
    next fine =>
      obtain ⟨rfl, rfl⟩ := Program.runs_done_iff.1 judged
      exact ⟨rfl, .completed prompt (CipherError.ofStatus?_eq_none_iff.1 fine)⟩
    next error decoded =>
      obtain ⟨rfl, rfl⟩ := Program.runs_done_iff.1 judged
      exact ⟨rfl, .refused prompt decoded⟩
  · obtain ⟨rfl, rfl⟩ := Program.runs_done_iff.1 ended
    refine ⟨List.replicate (limit - 1 + 1) false, none, by simp [reported], ?_⟩
    rw [patience]
    exact .expired

theorem runs_feed (start : List UInt32) {sequence : Sequence} {page : Nat}
    {chunks : List (List UInt8)} {finished rest : List UInt8} {outcome : Outcome}
    (front : 4 * page = 4 + start.length) (present : chunks = [] → start = [])
    (ran : (feed limit command slot sequence page chunks finished rest).Runs trace outcome)
    (whole : ∀ chunk ∈ chunks, chunk.length % 4 = 0) :
    ∃ turns, Course limit command slot sequence start chunks turns outcome.result ∧
      written 4 start ++ trace = turns.flatMap CipherTurn.accesses ∧
      outcome.output =
        finished.reverse ++
          (CipherTurn.bytes turns ++ rest.drop (CipherTurn.bytes turns).length) := by
  -- Only the first chunk has a start value before it; the later ones begin at page 1.
  induction chunks generalizing sequence page start finished rest trace with
  | nil =>
      obtain rfl := present rfl
      obtain ⟨rfl, rfl⟩ := Program.runs_done_iff.1 ran
      refine ⟨[], .finished, rfl, ?_⟩
      rw [List.reverseAux_eq]
      rfl
  | cons chunk more ih =>
      obtain ⟨quads, others⟩ := List.forall_mem_cons.1 whole
      rw [feed, pageWord, front] at ran
      obtain ⟨load, later, _, rfl, loading, loaded⟩ := Program.runs_bind_iff.1 ran
      obtain rfl := runs_writeWords loading
      obtain ⟨issue, last, result, rfl, executing, executed⟩ := Program.runs_bind_iff.1 loaded
      obtain ⟨answers, status, rfl, ended⟩ := runs_execute executing
      cases result with
      | error error =>
          obtain ⟨rfl, rfl⟩ := Program.runs_done_iff.1 executed
          refine ⟨_, .stopped ended, ?_, ?_⟩
          · simp [CipherTurn.accesses, written_append, fetched]
          · rw [List.reverseAux_eq]
            rfl
      | ok _ =>
          obtain ⟨back, behind, words, rfl, reading, onward⟩ := Program.runs_bind_iff.1 executed
          obtain ⟨rfl, length⟩ := runs_readWords reading
          obtain ⟨turns, course, same, output⟩ := ih [] rfl (fun _ => rfl) onward others
          refine ⟨_, .onward ended length course, ?_, ?_⟩
          · rw [List.flatMap_cons, ← same]
            simp [CipherTurn.accesses, written_append, written]
          · have own : (Word.unpackAll words).length = chunk.length := by
              rw [Word.length_unpackAll, length]
              omega
            rw [output, CipherTurn.bytes_cons, List.reverseAux_eq, List.reverse_append,
              List.reverse_reverse, List.length_append, own, List.drop_drop]
            simp only [List.append_assoc]

theorem flatten_pieces {room fuel : Nat} {bytes : List UInt8} (roomy : 0 < room)
    (enough : bytes.length ≤ fuel) : (pieces room fuel bytes).flatten = bytes := by
  induction fuel generalizing bytes with
  | zero =>
      obtain rfl := List.length_eq_zero_iff.1 (Nat.le_zero.1 enough)
      rfl
  | succ fuel ih =>
      cases bytes with
      | nil => rfl
      | cons byte bytes =>
          have shorter : ((byte :: bytes).drop room).length ≤ fuel := by
            rw [List.length_drop, List.length_cons] at *
            omega
          rw [pieces, List.flatten_cons, ih shorter, List.take_append_drop]
          exact List.cons_ne_nil _ _

theorem whole_of_mem_pieces {room fuel : Nat} {bytes chunk : List UInt8} (roomy : 0 < room)
    (pages : room % 16 = 0) (whole : bytes.length % 16 = 0)
    (member : chunk ∈ pieces room fuel bytes) : chunk ≠ [] ∧ chunk.length % 16 = 0 := by
  induction fuel generalizing bytes with
  | zero => cases member
  | succ fuel ih =>
      cases bytes with
      | nil => cases member
      | cons byte bytes =>
          rcases List.mem_cons.1 member with rfl | later
          · constructor
            · intro empty
              have length := congrArg List.length empty
              rw [List.length_take, List.length_cons, List.length_nil] at length
              omega
            · rw [List.length_take]
              omega
          · refine ih ?_ later
            rw [List.length_drop]
            omega

structure Cut (input : List UInt8) (chunks : List (List UInt8)) : Prop where
  flatten : chunks.flatten = input
  whole : ∀ chunk ∈ chunks, chunk ≠ [] ∧ chunk.length % 16 = 0

theorem Cut.quads {input : List UInt8} {chunks : List (List UInt8)} (cut : Cut input chunks) :
    ∀ chunk ∈ chunks, chunk.length % 4 = 0 := by
  intro chunk member
  have blocks := (cut.whole chunk member).2
  omega

theorem cut_chunks (start : Option Block) {input : List UInt8} (filled : input ≠ [])
    (whole : input.length % 16 = 0) : Cut input (chunks start input) := by
  cases start with
  | none =>
      constructor
      · exact flatten_pieces (by decide) (Nat.le_refl _)
      · intro chunk member
        exact whole_of_mem_pieces (by decide) (by decide) whole member
  | some block =>
      have some := List.length_pos_iff.2 filled
      have room : (maxPages - 1) * Block.size = 96 := rfl
      simp only [chunks, room]
      constructor
      · rw [List.flatten_cons, flatten_pieces (by decide), List.take_append_drop]
        rw [List.length_drop]
        omega
      · intro chunk member
        rcases List.mem_cons.1 member with rfl | later
        · constructor
          · rw [← List.length_pos_iff, List.length_take]
            omega
          · rw [List.length_take]
            omega
        · refine whole_of_mem_pieces (by decide) (by decide) ?_ later
          rw [List.length_drop]
          omega

def announced (pages : Nat) (word : UInt32) : List (Event commandWindow) :=
  [⟨.read 3, word⟩, ⟨.write 3 ((word &&& 0xFFFF0000) ||| UInt32.ofNat pages), ()⟩]

theorem runs_setPageLength {pages : Nat} (ran : (setPageLength pages).Runs trace ()) :
    ∃ word, trace = announced pages word := by
  obtain ⟨first, second, word, rfl, read, write⟩ := Program.runs_bind_iff.1 ran
  rw [Program.runs_call_iff.1 read, Program.runs_call_iff.1 write]
  exact ⟨word, rfl⟩

structure Admissible (input output : List UInt8) : Prop where
  filled : input ≠ []
  whole : input.length % 16 = 0
  room : input.length ≤ output.length
  few : input.length / 16 ≤ 65535

theorem lengthFits_iff {input output : List UInt8} :
    lengthFits input.length output.length = true ↔ Admissible input output := by
  simp only [lengthFits, Block.size, Bool.and_eq_true, bne_iff_ne, beq_iff_eq, decide_eq_true_eq]
  constructor
  · rintro ⟨⟨⟨filled, whole⟩, room⟩, few⟩
    exact ⟨mt List.length_eq_zero_iff.2 filled, whole, room,
      Nat.le_of_lt_succ (of_decide_eq_true few)⟩
  · rintro ⟨filled, whole, room, few⟩
    exact ⟨⟨⟨mt List.length_eq_zero_iff.1 filled, whole⟩, room⟩,
      decide_eq_true (Nat.lt_succ_of_le few)⟩

def startWords (start : Option Block) : List UInt32 := (start.map Block.words).getD []

theorem four_mul_frontPage (start : Option Block) :
    4 * frontPage start = 4 + (startWords start).length := by
  cases start with
  | none => rfl
  | some block => exact congrArg (4 + ·) block.length_words.symm

theorem runs_process {start : Option Block} {input output : List UInt8} {outcome : Outcome}
    (admissible : Admissible input output)
    (ran : (process limit command slot start input output).Runs trace outcome) :
    ∃ word turns, trace = announced (input.length / 16) word ++ turns.flatMap CipherTurn.accesses ∧
      Course limit command slot .first (startWords start) (chunks start input) turns
        outcome.result ∧
      outcome.output = CipherTurn.bytes turns ++ output.drop (CipherTurn.bytes turns).length := by
  have quads := (cut_chunks start admissible.filled admissible.whole).quads
  rw [process, if_pos (lengthFits_iff.2 admissible)] at ran
  obtain ⟨first, later, _, rfl, counting, counted⟩ := Program.runs_bind_iff.1 ran
  obtain ⟨word, rfl⟩ := runs_setPageLength counting
  cases start with
  | none =>
      obtain ⟨turns, course, same, result⟩ := runs_feed [] rfl (fun _ => rfl) counted quads
      exact ⟨word, turns, by rw [← same]; rfl, course, result⟩
  | some block =>
      obtain ⟨load, rest, _, rfl, loading, feeding⟩ := Program.runs_bind_iff.1 counted
      obtain rfl := runs_writeWords loading
      obtain ⟨turns, course, same, result⟩ := runs_feed block.words
        (four_mul_frontPage (some block)) (fun empty => by simp [chunks] at empty) feeding quads
      exact ⟨word, turns, by rw [← same]; rfl, course, result⟩

end CipherClient

namespace CipherOperation

open CipherClient (Admissible Cut announced lengthFits_iff startWords)

structure Conducted (operation : CipherOperation) (limit : Nat) (slot : KeySlot)
    (input output : List UInt8) (trace : List (Event commandWindow))
    (outcome : CipherClient.Outcome) (word : UInt32) (chunks : List (List UInt8))
    (turns : List CipherTurn) : Prop where
  cut : Cut input chunks
  trace_eq : trace = announced (input.length / 16) word ++ turns.flatMap CipherTurn.accesses
  course : Course limit operation.mode.command slot .first (startWords operation.start?) chunks
    turns outcome.result
  timeout_iff : outcome.result = .error .timeout ↔
    ∃ turn ∈ turns, turn.answers = List.replicate (max 1 limit) false
  patient : ∀ turn ∈ turns, turn.answers.length ≤ max 1 limit
  output_eq : outcome.output = CipherTurn.bytes turns ++ output.drop (CipherTurn.bytes turns).length
  length_le : (CipherTurn.bytes turns).length ≤ input.length
  length_eq : outcome.result = .ok () → (CipherTurn.bytes turns).length = input.length

theorem conducted_of_runs (operation : CipherOperation) {limit : Nat} {slot : KeySlot}
    {input output : List UInt8} {trace : List (Event commandWindow)}
    {outcome : CipherClient.Outcome}
    (admissible : Admissible input output)
    (ran : (operation.program limit slot input output).Runs trace outcome) :
    ∃ word turns, operation.Conducted limit slot input output trace outcome word
      (CipherClient.chunks operation.start? input) turns := by
  rw [program_eq] at ran
  obtain ⟨word, turns, whole, course, result⟩ := CipherClient.runs_process admissible ran
  have cut := CipherClient.cut_chunks operation.start? admissible.filled admissible.whole
  obtain ⟨less, all⟩ := course.length_bytes_le cut.quads
  rw [cut.flatten] at less all
  exact ⟨word, turns, cut, whole, course, course.timeout_iff, course.length_answers_le, result,
    less, all⟩

theorem refused_of_runs (operation : CipherOperation) {limit : Nat} {slot : KeySlot}
    {input output : List UInt8} {trace : List (Event commandWindow)}
    {outcome : CipherClient.Outcome}
    (inadmissible : ¬Admissible input output)
    (ran : (operation.program limit slot input output).Runs trace outcome) :
    trace = [] ∧ outcome = ⟨.error .invalidLength, output⟩ := by
  rw [program_eq, CipherClient.process, if_neg (mt lengthFits_iff.1 inadmissible)] at ran
  exact Program.runs_done_iff.1 ran

section
variable {σ : Type} (handler : Handler commandWindow σ) (state : σ) (operation : CipherOperation)
  (limit : Nat) (slot : KeySlot) (input output : List UInt8)

/-- Whatever the engine replies: an operation is refused for its lengths, untouched, or it gives the
chunks to the engine one after the other and stops at the first command that fails, with what is
wrong with it. The output is what was read back until then and goes on as before. -/
theorem operation_conducted :
    (((operation.program limit slot input output).run handler state).1.result =
        .error .invalidLength ↔ ¬Admissible input output) ∧
    (¬Admissible input output →
      (operation.program limit slot input output).trace handler state = [] ∧
      ((operation.program limit slot input output).run handler state).1.output = output) ∧
    (Admissible input output → ∃ word turns,
      operation.Conducted limit slot input output
        ((operation.program limit slot input output).trace handler state)
        ((operation.program limit slot input output).run handler state).1 word
        (CipherClient.chunks operation.start? input) turns) := by
  have ran := (operation.program limit slot input output).runs_trace handler state
  refine ⟨⟨?_, ?_⟩, ?_, ?_⟩
  · intro refused admissible
    obtain ⟨word, turns, conducted⟩ := operation.conducted_of_runs admissible ran
    exact conducted.course.ne_invalidLength refused
  · intro inadmissible
    rw [(operation.refused_of_runs inadmissible ran).2]
  · intro inadmissible
    obtain ⟨untouched, outcome⟩ := operation.refused_of_runs inadmissible ran
    exact ⟨untouched, by rw [outcome]⟩
  · intro admissible
    exact operation.conducted_of_runs admissible ran

end

namespace Sluggish

def engine : Handler commandWindow (List Bool)
  | .read _, answers => (0x00010000, answers)
  | .write _ _, answers => ((), answers)
  | .isComplete, answers => (answers.headD false, answers.tail)

def chained : CipherOperation := .encryptCbc (.replicate 16 0x11)

def input : List UInt8 := List.replicate 160 0x2A

def output : List UInt8 := List.replicate 164 0x55

set_option maxRecDepth 4000 in
/-- Six blocks come back from the first command, and the second one is never complete. Without any
input there is no command. -/
theorem operation_conducted_timeout :
    let outcome := ((chained.program 2 .ramKey input output).run engine [false, true]).1
    outcome.result = .error .timeout ∧
    outcome.output = (List.replicate 24 [0, 1, 0, 0]).flatten ++ List.replicate 68 0x55 ∧
    (∃ word turns, chained.Conducted 2 .ramKey input output
      ((chained.program 2 .ramKey input output).trace engine [false, true]) outcome word
      [input.take 96, input.drop 96] turns) ∧
    (chained.program 2 .ramKey [] output).trace engine [] = [] := by
  have admissible : Admissible input output := lengthFits_iff.1 (by decide +kernel)
  refine ⟨rfl, by decide +kernel, ?_, ?_⟩
  · exact (operation_conducted engine [false, true] chained 2 .ramKey input output).2.2 admissible
  · have refused := (operation_conducted engine [] chained 2 .ramKey [] output).2.1
    exact (refused fun admissible => admissible.filled rfl).1

end Sluggish

end CipherOperation

end BufferedCan
