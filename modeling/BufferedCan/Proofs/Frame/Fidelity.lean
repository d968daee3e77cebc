import BufferedCan.Proofs.Frame.Reading

/-! A draft is encoded if its data fits into a frame of its format, and then the message says what the
draft asked for. Only the length may be a longer one: the shortest that can be announced. -/

namespace BufferedCan

namespace Length

def limit (fd : Bool) : Nat := if fd then 64 else 8

def announceable (fd : Bool) : List Nat :=
  if fd then [0, 1, 2, 3, 4, 5, 6, 7, 8, 12, 16, 20, 24, 32, 48, 64]
  else [0, 1, 2, 3, 4, 5, 6, 7, 8]

theorem announceable_eq (fd : Bool) :
    announceable fd = ((List.range 16).map (ofCode fd)).eraseDups := by
  cases fd <;> decide

theorem mem_announceable_iff {fd : Bool} {length : Nat} :
    length ∈ announceable fd ↔ ∃ code < 16, ofCode fd code = length := by
  simp only [announceable_eq, List.mem_eraseDups, List.mem_map, List.mem_range]

theorem ofCode_le_limit (fd : Bool) {code : Nat} (bound : code < 16) : ofCode fd code ≤ limit fd := by
  revert code
  cases fd <;> decide

/-- The shortest length that can be announced for that many bytes. -/
structure Shortest (fd : Bool) (needed length : Nat) : Prop where
  announceable : length ∈ announceable fd
  enough : needed ≤ length
  least : ∀ other ∈ Length.announceable fd, needed ≤ other → length ≤ other

theorem shortest_of_code? {fd : Bool} {needed code : Nat} (found : code? fd needed = some code) :
    Shortest fd needed (ofCode fd code) := by
  obtain ⟨bound, enough, first⟩ := smallest_of_code? found
  refine ⟨mem_announceable_iff.2 ⟨code, bound, rfl⟩, enough, ?_⟩
  intro other member long
  obtain ⟨later, small, rfl⟩ := mem_announceable_iff.1 member
  apply ofCode_mono fd _ small
  apply Nat.le_of_not_lt
  intro before
  have short := first later before
  omega

theorem code?_eq_none_iff {fd : Bool} {needed : Nat} : code? fd needed = none ↔ limit fd < needed := by
  constructor
  · intro missing
    unfold code? at missing
    cases fd with
    | false =>
        split at missing
        next => cases missing
        next many => exact Nat.lt_of_not_le many
    | true =>
        simp only [Bool.not_true, Bool.false_eq_true, if_false] at missing
        repeat' split at missing
        all_goals cases missing
        exact Nat.lt_of_not_le ‹¬needed ≤ 64›
  · intro beyond
    cases found : code? fd needed with
    | none => rfl
    | some code =>
        have enough := le_ofCode found
        have bound := ofCode_le_limit fd (code?_lt found)
        omega

theorem isSome_code?_iff {fd : Bool} {needed : Nat} :
    (code? fd needed).isSome = true ↔ needed ≤ limit fd := by
  rw [Option.isSome_iff_ne_none, ne_eq, code?_eq_none_iff, Nat.not_lt]

end Length

namespace Content

variable {content : Content}

theorem length_bytes (plain : content.isRemote = false) : content.bytes.length = content.length := by
  cases content with
  | data bytes => rfl
  | remote length => cases plain
  | flexible bytes switchRate forcePassive => rfl

theorem bytes_eq_nil (remote : content.isRemote = true) : content.bytes = [] := by
  cases content with
  | data bytes => cases remote
  | remote length => rfl
  | flexible bytes switchRate forcePassive => cases remote

theorem plain_of_classic (classic : content.isFd = false) :
    content.switchesRate = false ∧ content.forcesPassive = false := by
  cases content with
  | data bytes => exact ⟨rfl, rfl⟩
  | remote length => exact ⟨rfl, rfl⟩
  | flexible bytes switchRate forcePassive => cases classic

end Content

namespace Draft

structure Encodes (draft : Draft) (message : Message) : Prop where
  id : message.id = draft.id
  isExtended : message.isExtended = draft.id.isExtended
  isFd : message.isFd = draft.content.isFd
  switchesRate : message.switchesRate = draft.content.switchesRate
  senderPassive : message.senderPassive = draft.content.forcesPassive
  classic : draft.content.isFd = false → message.switchesRate = false ∧ message.senderPassive = false
  isRemote : message.isRemote = draft.content.isRemote
  length : Length.Shortest draft.content.isFd draft.content.length message.length
  data : message.data = if draft.content.isRemote then []
    else draft.content.bytes ++ List.replicate (message.length - draft.content.length) 0
  word : ∀ number < 16, (message.word number).toNat =
    (message.data.getD (4 * number) 0).toNat <<< 24 +
      (message.data.getD (4 * number + 1) 0).toNat <<< 16 +
      (message.data.getD (4 * number + 2) 0).toNat <<< 8 +
      (message.data.getD (4 * number + 3) 0).toNat
  code : MbCs.code.get message.control = 0
  timestamp : message.timestamp = 0

theorem isSome_encode?_iff (draft : Draft) :
    draft.encode?.isSome = true ↔ draft.content.length ≤ Length.limit draft.content.isFd := by
  rw [encode?_eq, Option.isSome_map, Length.isSome_code?_iff]

theorem get_control_eq_zero (draft : Draft) (lengthCode : Nat) {field : Field}
    (apart : ∀ used ∈ [MbCs.edl, MbCs.brs, MbCs.esi, MbCs.srr, MbCs.ide, MbCs.rtr, MbCs.dlc],
      field.Disjoint used) : field.get (draft.control lengthCode) = 0 := by
  rw [control, Field.get_set_of_disjoint (apart _ (by simp)),
    Field.get_put_of_disjoint (apart _ (by simp)), Field.get_put_of_disjoint (apart _ (by simp)),
    Field.get_put_of_disjoint (apart _ (by simp)), Field.get_put_of_disjoint (apart _ (by simp)),
    Field.get_put_of_disjoint (apart _ (by simp)), Field.get_put_of_disjoint (apart _ (by simp)),
    Field.get_zero]

theorem data_message (draft : Draft) {lengthCode : Nat}
    (coded : Length.code? draft.content.isFd draft.content.length = some lengthCode) :
    (draft.message lengthCode).data = if draft.content.isRemote then []
      else draft.content.bytes ++
        List.replicate ((draft.message lengthCode).length - draft.content.length) 0 := by
  have small := Length.code?_lt coded
  have remote : (draft.message lengthCode).isRemote = draft.content.isRemote :=
    (draft.shown_control small).rtr
  have enough := Length.le_ofCode coded
  have bound := Length.ofCode_le draft.content.isFd lengthCode
  rw [← length_message small] at enough bound
  rw [Message.data, remote]
  split
  next => rfl
  next plain =>
    have whole := Content.length_bytes (Bool.not_eq_true _ ▸ plain)
    have room : min (draft.message lengthCode).length (draft.message lengthCode).capacity =
        (draft.message lengthCode).length := Nat.min_eq_left bound
    rw [room, ← whole]
    exact Payload.take_ofBytes_of_le _ (by omega) bound

theorem getD_data_message (draft : Draft) {lengthCode : Nat}
    (coded : Length.code? draft.content.isFd draft.content.length = some lengthCode) (index : Nat) :
    (draft.message lengthCode).data.getD index 0 = draft.content.bytes.getD index 0 := by
  rw [draft.data_message coded]
  split
  next remote =>
    rw [Content.bytes_eq_nil remote]
  next =>
    by_cases given : index < draft.content.bytes.length
    · rw [List.getD_eq_getElem?_getD, List.getElem?_append_left given, List.getD_eq_getElem?_getD]
    · rw [List.getD_eq_getElem?_getD, List.getElem?_append_right (by omega),
        List.getElem?_replicate, List.getD_eq_getElem?_getD, List.getElem?_eq_none (by omega)]
      split <;> rfl

theorem encodes {draft : Draft} {message : Message} (encoded : draft.encode? = some message) :
    draft.Encodes message := by
  rw [encode?_eq] at encoded
  obtain ⟨lengthCode, coded, rfl⟩ := Option.map_eq_some_iff.1 encoded
  have small := Length.code?_lt coded
  have shown := draft.shown_control small
  have id : (draft.message lengthCode).id = draft.id := by
    rw [Message.id, Message.isExtended]
    exact shown.ide ▸ Identifier.ofWord_toWord draft.id
  refine ⟨id, shown.ide, shown.edl, shown.brs, shown.esi, ?_, shown.rtr, ?_,
    draft.data_message coded, ?_, draft.get_control_eq_zero _ (by decide),
    draft.get_control_eq_zero _ (by decide)⟩
  · intro classic
    have plain := Content.plain_of_classic classic
    exact ⟨shown.brs.trans plain.1, shown.esi.trans plain.2⟩
  · rw [length_message small]
    exact Length.shortest_of_code? coded
  · intro number bound
    have byte (place : Nat) (within : place < 64) :
        (draft.message lengthCode).payload[place]?.getD 0 =
          (draft.message lengthCode).data.getD place 0 := by
      rw [draft.getD_data_message coded]
      exact Payload.getElem?_ofBytes _ within
    rw [Message.word, Payload.word, Word.toNat_ofBytes, byte _ (by omega), byte _ (by omega),
      byte _ (by omega), byte _ (by omega)]

/-- A draft is encoded if and only if its data fits, and the message says what the draft asks for. -/
theorem encode?_faithful (draft : Draft) :
    (draft.encode?.isSome = true ↔ draft.content.length ≤ Length.limit draft.content.isFd) ∧
      ∀ message, draft.encode? = some message → draft.Encodes message :=
  ⟨draft.isSome_encode?_iff, fun _ => encodes⟩

def thirteen : Draft :=
  ⟨.extended 0x1ABCDEF0, .flexible [1, 2, 3, 4, 5, 6, 7, 8, 9, 10, 11, 12, 13] true false⟩

theorem encode?_faithful_thirteen : ∃ message, thirteen.encode? = some message ∧
    thirteen.Encodes message ∧ message.length = 16 ∧ message.word 3 = 0x0D000000 :=
  ⟨_, rfl, (encode?_faithful thirteen).2 _ rfl, rfl, rfl⟩

end Draft

end BufferedCan
