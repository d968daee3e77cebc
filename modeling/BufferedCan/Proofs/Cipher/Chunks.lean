import BufferedCan.Cipher.Client
import BufferedCan.Proofs.Cipher.Commands

/-! A long message goes through the window in chunks, one command each. What software takes for the next
chunk is what the engine takes for it, and the chain goes on from command to command, so the chunks
together come out as the whole message would. -/

namespace BufferedCan

theorem Program.runChecked_bind_ok {face : Interface} {α β σ : Type} {handler : CheckedHandler face σ}
    {program : Program face α} {state after : σ} {value : α}
    (ran : program.runChecked handler state = (.ok value, after)) (next : α → Program face β) :
    (program >>= next).runChecked handler state = (next value).runChecked handler after := by
  rw [runChecked_bind, ran]

def Engine.behindWindow (cipher : BlockCipher) : CheckedHandler commandWindow Engine :=
  (Engine.access cipher).within WindowCall.inside

namespace CipherClient

open Engine (behindWindow Due Ciphered cipherBlocks marked)

variable {cipher : BlockCipher} {engine : Engine}

theorem run_readWindow (engine : Engine) {word : Nat} (inside : word < windowWords) :
    (readWindow word).runChecked (behindWindow cipher) engine =
      (.ok (engine.window.read word), engine) := by
  simp [readWindow, Program.runChecked, behindWindow, Handler.within, WindowCall.inside, inside,
    Engine.access]

theorem run_writeWindow (engine : Engine) {word : Nat} (value : UInt32)
    (inside : word < windowWords) :
    (writeWindow word value).runChecked (behindWindow cipher) engine =
      (.ok (), engine.write cipher word value) := by
  simp [writeWindow, Program.runChecked, behindWindow, Handler.within, WindowCall.inside, inside,
    Engine.access]

theorem write_of_pos (engine : Engine) {word : Nat} (value : UInt32) (data : 0 < word) :
    engine.write cipher word value = { engine with window := engine.window.write word value } := by
  rw [Engine.write, if_neg]
  rintro ⟨rfl, -⟩
  exact absurd data (Nat.lt_irrefl 0)

theorem run_writeWords (cipher : BlockCipher) (engine : Engine) {word : Nat} (values : List UInt32)
    (data : 0 < word) (fits : word + values.length ≤ windowWords) :
    (writeWords word values).runChecked (behindWindow cipher) engine =
      (.ok (), { engine with window := engine.window.writeAll word values }) := by
  induction values generalizing engine word with
  | nil => rfl
  | cons value rest ih =>
      rw [List.length_cons] at fits
      rw [writeWords, Program.runChecked_bind_ok (run_writeWindow engine value (by omega)),
        write_of_pos engine value data, ih _ (by omega) (by omega), Window.writeAll]

theorem run_readWords (engine : Engine) {word count : Nat} (fits : word + count ≤ windowWords) :
    (readWords word count).runChecked (behindWindow cipher) engine =
      (.ok (engine.window.readAll word count), engine) := by
  induction count generalizing word with
  | zero => rfl
  | succ count ih =>
      rw [readWords, Program.runChecked_bind_ok (run_readWindow engine (by omega)),
        Program.runChecked_bind_ok (ih (by omega)), Window.readAll_succ]
      rfl

theorem run_awaitCompletion (alive : engine.hung = false) (more : Nat) :
    (awaitCompletion more).runChecked (behindWindow cipher) engine = (.ok true, engine) := by
  have asked : isComplete.runChecked (behindWindow cipher) engine = (.ok true, engine) := by
    simp [isComplete, Program.runChecked, behindWindow, Handler.within, WindowCall.inside,
      Engine.access, alive]
  cases more with
  | zero => exact asked
  | succ more =>
      rw [awaitCompletion, Program.runChecked_bind_ok asked]
      rfl

theorem run_execute {command : CipherCommand} {sequence : Sequence} {slot : KeySlot}
    {status : CommandStatus} {after : Engine} (limit : Nat)
    (wrote : engine.write cipher 0 (commandHeader command sequence slot) = after.marked status)
    (alive : after.hung = false) :
    (execute limit command sequence slot).runChecked (behindWindow cipher) engine =
      (.ok (match CipherError.ofStatus? status.toNat with
        | none => .ok ()
        | some error => .error error), after.marked status) := by
  have waited : (after.marked status).hung = false := alive
  rw [execute, Program.runChecked_bind_ok (run_writeWindow engine _ (by rw [windowWords]; omega)), wrote,
    Program.runChecked_bind_ok (run_awaitCompletion waited _), if_pos rfl,
    Program.runChecked_bind_ok (run_readWindow _ (by rw [windowWords]; omega)),
    Engine.status_marked]
  cases CipherError.ofStatus? status.toNat <;> rfl

variable {mode : Engine.CipherMode} {sequence : Sequence} {page total : Nat} {chain key : Block}
  {slot : KeySlot} {blocks : List Block}

theorem run_feed_cons (alive : engine.hung = false)
    (due : engine.Due mode sequence page total chain)
    (held : engine.key? slot.toByte.toNat = some key)
    (filled : min total (8 - page) = blocks.length) (limit : Nat) (more : List (List UInt8))
    (finished rest : List UInt8) :
    ∃ after, (feed limit mode.command slot sequence page (Block.join blocks :: more) finished
          rest).runChecked (behindWindow cipher) engine =
        (feed limit mode.command slot .subsequent 1 more
          ((Block.join (cipherBlocks cipher key mode chain blocks).1).reverseAux finished)
          (rest.drop (16 * blocks.length))).runChecked (behindWindow cipher) after ∧
      engine.Ciphered after page (cipherBlocks cipher key mode chain blocks)
        (total - blocks.length) := by
  have front := due.page_cases
  have words : (Word.packAll (Block.join blocks)).length = 4 * blocks.length := by
    rw [Word.length_packAll, Block.length_join]
    omega
  have fits : 4 * page + (Word.packAll (Block.join blocks)).length ≤ windowWords := by
    rw [words, windowWords]
    omega
  have loaded : (engine.window.writeAll (4 * page) (Word.packAll (Block.join blocks))).pages page
      blocks.length = blocks := by
    rw [Block.packAll_join]
    exact engine.window.pages_writeAll (by omega)
  obtain ⟨after, wrote, ciphered⟩ := Engine.write_of_due cipher
    (due.load (Word.packAll (Block.join blocks))) alive held loaded filled
  have quarter : (Block.join blocks).length / 4 = 4 * blocks.length := by
    rw [Block.length_join]
    omega
  have output : Word.unpackAll ((after.marked .success).window.readAll (4 * page)
      (4 * blocks.length)) = Block.join (cipherBlocks cipher key mode chain blocks).1 := by
    rw [Window.unpackAll_readAll, ← Engine.length_cipherBlocks, ciphered.pages]
  refine ⟨after.marked .success, ?_, ciphered.pages, ciphered.chain, ciphered.remaining,
    ciphered.served.commands, ciphered.served.keys, ciphered.served.hung⟩
  have still : after.hung = false := ciphered.served.hung.trans alive
  rw [feed, pageWord, Program.runChecked_bind_ok (run_writeWords cipher engine _ (by omega) fits),
    Program.runChecked_bind_ok (run_execute limit wrote still)]
  show Program.runChecked _ (readWords (4 * page) _ >>= _) _ = _
  rw [quarter, Program.runChecked_bind_ok (run_readWords _ (by rw [windowWords]; omega)), output,
    Block.length_join]

theorem run_feed_keyEmpty (mode : Engine.CipherMode) (sequence : Sequence) (alive : engine.hung = false)
    (missing : engine.key? slot.toByte.toNat = none) {chunk : List UInt8} (front : 0 < page)
    (fits : 4 * page + chunk.length / 4 ≤ windowWords) (limit : Nat) (more : List (List UInt8))
    (finished rest : List UInt8) :
    ∃ after, (feed limit mode.command slot sequence page (chunk :: more) finished rest).runChecked
        (behindWindow cipher) engine =
      (.ok ⟨.error .keyEmpty, finished.reverseAux rest⟩, after) := by
  rw [← Word.length_packAll] at fits
  generalize loading : { engine with
    window := engine.window.writeAll (4 * page) (Word.packAll chunk) } = loaded
  have loadedAlive : loaded.hung = false := by
    rw [← loading]
    exact alive
  have loadedMissing : loaded.key? slot.toByte.toNat = none := by
    rw [← loading]
    exact missing
  obtain ⟨after, wrote, still⟩ :=
    Engine.write_of_keyEmpty cipher mode sequence loadedAlive loadedMissing
  refine ⟨after.marked .keyEmpty, ?_⟩
  rw [feed, pageWord, Program.runChecked_bind_ok (run_writeWords cipher engine _ (by omega) fits), loading,
    Program.runChecked_bind_ok (run_execute limit wrote still)]
  rfl

theorem pieces_join (fuel : Nat) (waits : blocks ≠ []) :
    pieces (maxPages * Block.size) (fuel + 1) (Block.join blocks) =
      Block.join (blocks.take 7) ::
        pieces (maxPages * Block.size) fuel (Block.join (blocks.drop 7)) := by
  have room : maxPages * Block.size = 16 * 7 := rfl
  have filled : (Block.join blocks).length ≠ 0 := by
    rw [Block.length_join]
    have some := List.length_pos_iff.mpr waits
    omega
  rw [room, ← Block.take_join, ← Block.drop_join]
  cases bytes : Block.join blocks with
  | nil => exact absurd (congrArg List.length bytes) filled
  | cons byte rest => rfl

def Yields (cipher : BlockCipher) (engine : Engine) (program : Program commandWindow Outcome)
    (output : List UInt8) (commands : Nat) : Prop :=
  ∃ after, program.runChecked (behindWindow cipher) engine = (.ok ⟨.ok (), output⟩, after) ∧
    engine.Served after commands

def produced (finished rest : List UInt8) (outputs : List Block) : List UInt8 :=
  finished.reverse ++ (Block.join outputs ++ rest.drop (16 * outputs.length))

theorem yields_feed_nil (limit : Nat) (command : CipherCommand) (finished rest : List UInt8) :
    Yields cipher engine (feed limit command slot sequence page [] finished rest)
      (produced finished rest []) 0 := by
  refine ⟨engine, ?_, rfl, rfl, rfl⟩
  rw [feed, List.reverseAux_eq]
  rfl

theorem yields_feed_cons (cipher : BlockCipher) {first second : List Block}
    {more : List (List UInt8)} {limit : Nat} (alive : engine.hung = false)
    (due : engine.Due mode sequence page (first.length + second.length) chain)
    (held : engine.key? slot.toByte.toNat = some key)
    (filled : min (first.length + second.length) (8 - page) = first.length)
    (later : ∀ (middle : Engine) (finished rest : List UInt8), middle.hung = false →
      middle.key? slot.toByte.toNat = some key → middle.remaining = second.length →
      Yields cipher middle (feed limit mode.command slot .subsequent 1 more finished rest)
        (produced finished rest (cipherBlocks cipher key mode middle.chain second).1)
        ((second.length + 6) / 7))
    (finished rest : List UInt8) :
    Yields cipher engine
      (feed limit mode.command slot sequence page (Block.join first :: more) finished rest)
      (produced finished rest (cipherBlocks cipher key mode chain (first ++ second)).1)
      (1 + (second.length + 6) / 7) := by
  obtain ⟨middle, fed, ciphered⟩ := run_feed_cons alive due held filled limit more finished rest
  obtain ⟨after, ran, served⟩ := later middle
    ((Block.join (cipherBlocks cipher key mode chain first).1).reverseAux finished)
    (rest.drop (16 * first.length)) (ciphered.served.hung.trans alive)
    ((ciphered.served.key? _).trans held) (by rw [ciphered.remaining]; omega)
  refine ⟨after, ?_, ciphered.served.trans served⟩
  -- The second part starts from the chain that the engine was left with, as it does in the whole message.
  rw [fed, ran, Engine.cipherBlocks_append, ← ciphered.chain]
  simp only [produced, List.reverseAux_eq, List.reverse_append, List.reverse_reverse,
    Block.join_append, List.drop_drop, List.length_append, Engine.length_cipherBlocks,
    Nat.mul_add, List.append_assoc]

theorem yields_feed_pieces (limit : Nat) (finished rest : List UInt8) (alive : engine.hung = false)
    (held : engine.key? slot.toByte.toNat = some key) (left : engine.remaining = blocks.length)
    {fuel : Nat} (enough : blocks.length ≤ fuel) :
    Yields cipher engine
      (feed limit mode.command slot .subsequent 1
        (pieces (maxPages * Block.size) fuel (Block.join blocks)) finished rest)
      (produced finished rest (cipherBlocks cipher key mode engine.chain blocks).1)
      ((blocks.length + 6) / 7) := by
  -- A command moves everything on: the engine, what is left, the output and the room behind it.
  induction fuel generalizing engine blocks finished rest with
  | zero =>
      have empty : blocks = [] := List.length_eq_zero_iff.mp (by omega)
      subst empty
      exact yields_feed_nil limit _ finished rest
  | succ fuel ih =>
      by_cases waits : blocks = []
      · subst waits
        exact yields_feed_nil limit _ finished rest
      · have some := List.length_pos_iff.mpr waits
        have early : (blocks.take 7).length = min 7 blocks.length := List.length_take
        have late : (blocks.drop 7).length = blocks.length - 7 := List.length_drop
        have total : engine.remaining = (blocks.take 7).length + (blocks.drop 7).length := by omega
        have due : engine.Due mode .subsequent 1 engine.remaining engine.chain :=
          .later (by omega)
        rw [total] at due
        have fed := yields_feed_cons cipher alive due held (by omega)
          (fun middle finished rest alive held left => ih finished rest alive held left
            (show (blocks.drop 7).length ≤ fuel by omega)) finished rest
        rw [List.take_append_drop] at fed
        have count : 1 + ((blocks.drop 7).length + 6) / 7 = (blocks.length + 6) / 7 := by omega
        rw [pieces_join fuel waits, ← count]
        exact fed

theorem halves_of_counted (word : UInt32) (few : total < 0x10000) :
    ((word &&& 0xFFFF0000) ||| UInt32.ofNat total).toNat / 0x10000 = word.toNat / 0x10000 ∧
      ((word &&& 0xFFFF0000) ||| UInt32.ofNat total).toNat % 0x10000 = total := by
  have low : (UInt32.ofNat total).toNat = total :=
    UInt32.toNat_ofNat_of_lt' (by simp only [UInt32.size]; omega)
  have bound := word.toNat_lt
  rw [UInt32.toNat_or, low, UInt32.toNat_and]
  constructor
  · refine (Nat.or_div_two_pow (n := 16)).trans ?_
    have kept : (word.toNat &&& (0xFFFF0000 : UInt32).toNat) / 2 ^ 16 = word.toNat / 0x10000 := by
      refine (Nat.and_div_two_pow (n := 16)).trans ?_
      refine (Nat.and_two_pow_sub_one_eq_mod _ 16).trans ?_
      exact Nat.mod_eq_of_lt (by omega)
    have none : total / 2 ^ 16 = 0 := Nat.div_eq_of_lt few
    rw [kept, none, Nat.or_zero]
  · refine (Nat.or_mod_two_pow (n := 16)).trans ?_
    have high : (word.toNat &&& (0xFFFF0000 : UInt32).toNat) % 2 ^ 16 = 0 :=
      (Nat.and_mod_two_pow (n := 16)).trans (Nat.and_zero _)
    have whole : total % 2 ^ 16 = total := Nat.mod_eq_of_lt few
    rw [high, whole, Nat.zero_or]

theorem run_setPageLength (cipher : BlockCipher) (engine : Engine) (few : total < 0x10000) :
    ∃ word, (setPageLength total).runChecked (behindWindow cipher) engine =
        (.ok (), { engine with window := engine.window.write 3 word }) ∧
      word.toNat % 0x10000 = total := by
  refine ⟨(engine.window.read 3 &&& 0xFFFF0000) ||| UInt32.ofNat total, ?_, ?_⟩
  · rw [setPageLength, Program.runChecked_bind_ok (run_readWindow engine (by rw [windowWords]; omega)),
      run_writeWindow engine _ (by rw [windowWords]; omega), write_of_pos engine _ (by omega)]
  · exact (halves_of_counted _ few).2

def frontPage (start : Option Block) : Nat := if start.isSome then 2 else 1

theorem chunks_join (start : Option Block) (waits : blocks ≠ []) :
    ∃ fuel, blocks.length ≤ fuel + (8 - frontPage start) ∧
      chunks start (Block.join blocks) = Block.join (blocks.take (8 - frontPage start)) ::
        pieces (maxPages * Block.size) fuel (Block.join (blocks.drop (8 - frontPage start))) := by
  have some := List.length_pos_iff.mpr waits
  have bytes := Block.length_join blocks
  cases start with
  | none =>
      refine ⟨(Block.join blocks).length - 1, by omega, ?_⟩
      refine Eq.trans ?_ (pieces_join _ waits)
      rw [Nat.sub_add_cancel (by omega)]
      rfl
  | some block =>
      have room : (maxPages - 1) * Block.size = 16 * 6 := rfl
      refine ⟨(Block.join blocks).length, by omega, ?_⟩
      simp only [chunks, room]
      rw [Block.take_join, Block.drop_join]
      rfl

theorem lengthFits_join (waits : blocks ≠ []) (few : blocks.length < 0x10000) {room : Nat}
    (fits : (Block.join blocks).length ≤ room) : lengthFits (Block.join blocks).length room = true := by
  have some := List.length_pos_iff.mpr waits
  rw [Block.length_join] at fits ⊢
  simp only [lengthFits, Block.size, Bool.and_eq_true, bne_iff_ne, ne_eq, beq_iff_eq,
    decide_eq_true_eq]
  refine ⟨⟨⟨?_, ?_⟩, fits⟩, ?_⟩
  · omega
  · omega
  · exact decide_eq_true (by omega)

theorem run_process (cipher : BlockCipher) (engine : Engine) (slot : KeySlot) (limit : Nat)
    (start : Option Block) (linked : start.isSome = mode.chained)
    (waits : blocks ≠ []) (few : blocks.length < 0x10000) {output : List UInt8}
    (fits : (Block.join blocks).length ≤ output.length) :
    ∃ ready : Engine, (process limit mode.command slot start (Block.join blocks) output).runChecked
          (behindWindow cipher) engine =
        (feed limit mode.command slot .first (frontPage start) (chunks start (Block.join blocks)) []
          output).runChecked (behindWindow cipher) ready ∧
      engine.Served ready 0 ∧
      ready.Due mode .first (frontPage start) blocks.length (start.getD ready.chain) := by
  have count : (Block.join blocks).length / Block.size = blocks.length := by
    rw [Block.length_join, Block.size]
    omega
  obtain ⟨word, noted, asked⟩ := run_setPageLength cipher engine few
  rw [process, if_pos (lengthFits_join waits few fits), count, Program.runChecked_bind_ok noted]
  cases start with
  | none =>
      refine ⟨{ engine with window := engine.window.write 3 word }, rfl, ⟨rfl, rfl, rfl⟩,
        .single linked.symm ?_⟩
      rw [Window.read_write_self _ _ (by rw [windowWords]; omega), asked]
  | some block =>
      have room : 4 * 1 + block.words.length ≤ windowWords := by
        rw [block.length_words, windowWords]
        omega
      generalize loading : (engine.window.write 3 word).writeAll (4 * 1) block.words = window
      have front : window.page 1 = block := by
        rw [← loading]
        exact (engine.window.write 3 word).page_writeAll block (by omega)
      have number : (window.read 3).toNat % 0x10000 = blocks.length := by
        rw [← loading, Window.read_writeAll_of_outside (.inl (by omega)),
          Window.read_write_self _ _ (by rw [windowWords]; omega), asked]
      have loaded : (writeWords (pageWord 1) block.words).runChecked (behindWindow cipher)
          { engine with window := engine.window.write 3 word } =
          (.ok (), { engine with window := window }) := by
        rw [← loading]
        exact run_writeWords cipher _ block.words (by rw [pageWord]; omega) room
      refine ⟨{ engine with window := window }, Program.runChecked_bind_ok loaded _, ⟨rfl, rfl, rfl⟩,
        ?_⟩
      rw [← front]
      exact .chained linked.symm number

def commandCount (start : Option Block) (count : Nat) : Nat :=
  1 + (count - (8 - frontPage start) + 6) / 7

theorem yields_process (limit : Nat) (start : Option Block) (linked : start.isSome = mode.chained)
    (alive : engine.hung = false) (held : engine.key? slot.toByte.toNat = some key)
    (waits : blocks ≠ []) (few : blocks.length < 0x10000) {output : List UInt8}
    (fits : (Block.join blocks).length ≤ output.length) :
    ∃ chain, Yields cipher engine (process limit mode.command slot start (Block.join blocks) output)
      (produced [] output (cipherBlocks cipher key mode (start.getD chain) blocks).1)
      (commandCount start blocks.length) := by
  obtain ⟨ready, began, served, due⟩ :=
    run_process cipher engine slot limit start linked waits few fits
  obtain ⟨fuel, enough, chunked⟩ := chunks_join start waits
  have early : (blocks.take (8 - frontPage start)).length = min (8 - frontPage start) blocks.length :=
    List.length_take
  have late : (blocks.drop (8 - frontPage start)).length = blocks.length - (8 - frontPage start) :=
    List.length_drop
  have parts : blocks.length = (blocks.take (8 - frontPage start)).length +
      (blocks.drop (8 - frontPage start)).length := by omega
  rw [parts] at due
  obtain ⟨after, fed, ended⟩ := yields_feed_cons cipher (served.hung.trans alive) due
    ((served.key? _).trans held) (by omega)
    (fun _ finished rest alive held left =>
      yields_feed_pieces limit finished rest alive held left
        (show (blocks.drop (8 - frontPage start)).length ≤ fuel by omega)) [] output
  rw [List.take_append_drop] at fed
  rw [late] at ended
  have whole := served.trans ended
  rw [Nat.zero_add] at whole
  exact ⟨ready.chain, after, by rw [began, chunked, fed], whole⟩

theorem run_process_keyEmpty (cipher : BlockCipher) (mode : Engine.CipherMode) (limit : Nat)
    (start : Option Block) (linked : start.isSome = mode.chained) (alive : engine.hung = false)
    (missing : engine.key? slot.toByte.toNat = none) (waits : blocks ≠ [])
    (few : blocks.length < 0x10000) {output : List UInt8}
    (fits : (Block.join blocks).length ≤ output.length) :
    ∃ after, (process limit mode.command slot start (Block.join blocks) output).runChecked
        (behindWindow cipher) engine = (.ok ⟨.error .keyEmpty, output⟩, after) := by
  obtain ⟨ready, began, served, due⟩ :=
    run_process cipher engine slot limit start linked waits few fits
  obtain ⟨fuel, -, chunked⟩ := chunks_join start waits
  have front := due.page_cases
  have small : (Block.join (blocks.take (8 - frontPage start))).length / 4 ≤
      4 * (8 - frontPage start) := by
    rw [Block.length_join, List.length_take]
    omega
  obtain ⟨after, failed⟩ := run_feed_keyEmpty mode .first (served.hung.trans alive)
    ((served.key? _).trans missing) (by omega)
    (show 4 * frontPage start + (Block.join (blocks.take (8 - frontPage start))).length / 4 ≤
      windowWords by rw [windowWords]; omega) limit
    (pieces (maxPages * Block.size) fuel (Block.join (blocks.drop (8 - frontPage start)))) [] output
  exact ⟨after, by rw [began, chunked, failed]; rfl⟩

end CipherClient

end BufferedCan
