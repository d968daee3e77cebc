import BufferedCan.Proofs.Cipher.Blocks

/-! The command window as pages of four words, each of which holds a block. Page 0 holds what commands
consist of; data is in the seven pages after it. -/

namespace BufferedCan.Window

variable {window : Window}

theorem readAll_succ (window : Window) (word count : Nat) :
    window.readAll word (count + 1) = window.read word :: window.readAll (word + 1) count := by
  rw [readAll, List.range_succ_eq_map, List.map_cons, List.map_map, Nat.add_zero, readAll]
  congr 1
  refine List.map_congr_left ?_
  intro number _
  rw [Function.comp_apply, Nat.succ_eq_add_one, Nat.add_assoc, Nat.add_comm 1]

theorem readAll_add (window : Window) (word first second : Nat) :
    window.readAll word (first + second) =
      window.readAll word first ++ window.readAll (word + first) second := by
  simp only [readAll, List.range_add, List.map_append, List.map_map]
  congr 1
  refine List.map_congr_left ?_
  intro number _
  rw [Function.comp_apply, Nat.add_assoc]

theorem length_readAll (window : Window) (word count : Nat) :
    (window.readAll word count).length = count := by
  rw [readAll, List.length_map, List.length_range]

theorem read_writeAll_of_outside {word other : Nat} {values : List UInt32}
    (outside : other < word ∨ word + values.length ≤ other) :
    (window.writeAll word values).read other = window.read other := by
  induction values generalizing window word with
  | nil => rfl
  | cons value rest ih =>
      rw [List.length_cons] at outside
      rw [writeAll, ih (by omega), read_write_of_ne _ _ (by omega)]

theorem writeAll_append (window : Window) (word : Nat) (first second : List UInt32) :
    window.writeAll word (first ++ second) =
      (window.writeAll word first).writeAll (word + first.length) second := by
  induction first generalizing window word with
  | nil => rfl
  | cons value rest ih =>
      rw [List.cons_append, writeAll, ih, writeAll, List.length_cons, Nat.add_assoc,
        Nat.add_comm 1]

theorem readAll_writeAll (window : Window) {word : Nat} {values : List UInt32}
    (fits : word + values.length ≤ windowWords) :
    (window.writeAll word values).readAll word values.length = values := by
  induction values generalizing window word with
  | nil => rfl
  | cons value rest ih =>
      rw [List.length_cons] at fits ⊢
      rw [writeAll, readAll_succ, ih _ (by omega), read_writeAll_of_outside (by omega),
        read_write_self _ _ (by omega)]

theorem readAll_congr {after : Window} {word count : Nat}
    (same : ∀ other, word ≤ other → other < word + count → after.read other = window.read other) :
    after.readAll word count = window.readAll word count := by
  refine List.map_congr_left ?_
  intro number inside
  have bound := List.mem_range.mp inside
  exact same (word + number) (by omega) (by omega)

def page (window : Window) (number : Nat) : Block := .ofWords (window.readAll (4 * number) 4)

def pages (window : Window) : (first count : Nat) → List Block
  | _, 0 => []
  | first, count + 1 => window.page first :: window.pages (first + 1) count

theorem page_congr {after : Window} {number : Nat}
    (same : ∀ word, 4 * number ≤ word → word < 4 * number + 4 → after.read word = window.read word) :
    after.page number = window.page number := by
  rw [page, readAll_congr same, page]

theorem pages_congr {after : Window} {first count : Nat}
    (same : ∀ word, 4 * first ≤ word → word < 4 * (first + count) →
      after.read word = window.read word) :
    after.pages first count = window.pages first count := by
  induction count generalizing first with
  | zero => rfl
  | succ count ih =>
      rw [pages, pages, page_congr fun word low high => same word low (by omega),
        ih fun word low high => same word (by omega) (by omega)]

theorem page_writeAll (window : Window) {number : Nat} (block : Block) (fits : number < 8) :
    (window.writeAll (4 * number) block.words).page number = block := by
  have back := window.readAll_writeAll (show 4 * number + block.words.length ≤ windowWords by
    rw [block.length_words, windowWords]
    omega)
  rw [block.length_words] at back
  rw [page, back, Block.ofWords_words]

theorem pages_writeAll (window : Window) {first : Nat} {blocks : List Block}
    (fits : first + blocks.length ≤ 8) :
    (window.writeAll (4 * first) (blocks.flatMap Block.words)).pages first blocks.length =
      blocks := by
  induction blocks generalizing window first with
  | nil => rfl
  | cons block rest ih =>
      rw [List.length_cons] at fits ⊢
      have next : 4 * first + block.words.length = 4 * (first + 1) := by
        rw [block.length_words]
        omega
      rw [List.flatMap_cons, writeAll_append, next, pages, ih _ (by omega),
        page_congr fun word _ high => read_writeAll_of_outside (.inl (by omega)),
        page_writeAll _ _ (by omega)]

theorem unpackAll_readAll (window : Window) (first count : Nat) :
    Word.unpackAll (window.readAll (4 * first) (4 * count)) = Block.join (window.pages first count) := by
  induction count generalizing first with
  | zero => rfl
  | succ count ih =>
      have more : 4 * (count + 1) = 4 + 4 * count := by omega
      have next : 4 * first + 4 = 4 * (first + 1) := by omega
      rw [more, readAll_add, Word.unpackAll_append, next, ih, pages, Block.join_cons, page,
        Block.toList_ofWords _ (length_readAll _ _ _)]

end BufferedCan.Window
