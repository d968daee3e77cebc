import BufferedCan.Proofs.Frame.Encoding
import BufferedCan.Proofs.Hardware.Mailbox

/-! What a received message says. It says what the draft of its sender said: the words of the payload
that the receiver has room for are all that is carried over, and the bytes that fill up the announced
length are zero. -/

namespace BufferedCan

structure Reading where
  id : Identifier
  isFd : Bool
  switchesRate : Bool
  senderPassive : Bool
  isRemote : Bool
  lengthCode : Nat
  length : Nat
  data : List UInt8
  payload : Payload
  truncated : Bool
  overrun : Bool
  code : BufferCode
  timestamp : Nat
  deriving DecidableEq

def Message.reading (message : Message) : Reading where
  id := message.id
  isFd := message.isFd
  switchesRate := message.switchesRate
  senderPassive := message.senderPassive
  isRemote := message.isRemote
  lengthCode := message.lengthCode
  length := message.length
  data := message.data
  payload := message.payload
  truncated := message.truncated
  overrun := message.overrun
  code := message.code
  timestamp := message.timestamp

namespace Draft

def carried (draft : Draft) (length capacity : Nat) : List UInt8 :=
  (draft.content.bytes ++ List.replicate (length - draft.content.bytes.length) 0).take capacity

def reading (draft : Draft) (lengthCode capacity : Nat) (overrun : Bool) (timestamp : Nat) :
    Reading :=
  let length := Length.ofCode draft.content.isFd lengthCode
  { id := draft.id
    isFd := draft.content.isFd
    switchesRate := draft.content.switchesRate
    senderPassive := draft.content.forcesPassive
    isRemote := false
    lengthCode := lengthCode
    length := length
    data := draft.carried length capacity
    payload := .ofBytes (draft.carried length capacity)
    truncated := capacity < length
    overrun := overrun
    code := if overrun then .rxOverrun else .rxFull
    timestamp := timestamp }

end Draft

namespace Word

theorem getD_bytes_zero (place : Nat) : (bytes 0).getD place 0 = 0 := by
  match place with
  | 0 | 1 | 2 | 3 => rfl
  | _ + 4 => rfl

theorem getD_unpackAll (words : List UInt32) (index : Nat) :
    (unpackAll words).getD index 0 = (bytes (words.getD (index / 4) 0)).getD (index % 4) 0 := by
  induction words generalizing index with
  | nil =>
      rw [List.getD_nil, getD_bytes_zero]
      rfl
  | cons word rest ih =>
      have split : unpackAll (word :: rest) = bytes word ++ unpackAll rest := rfl
      rw [split]
      by_cases first : index < 4
      · have zero : index / 4 = 0 := by omega
        have whole : index % 4 = index := by omega
        rw [List.getD_eq_getElem?_getD, List.getElem?_append_left (by rw [length_bytes]; exact first),
          zero, whole, List.getD_cons_zero, List.getD_eq_getElem?_getD]
      · have next : index / 4 = (index - 4) / 4 + 1 := by omega
        have same : index % 4 = (index - 4) % 4 := by omega
        rw [List.getD_eq_getElem?_getD, List.getElem?_append_right (by rw [length_bytes]; omega),
          length_bytes, ← List.getD_eq_getElem?_getD, ih, next, same, List.getD_cons_succ]

end Word

namespace Payload

theorem getElem?_ofBytes (bytes : List UInt8) {index : Nat} (bound : index < 64) :
    (ofBytes bytes)[index]?.getD 0 = bytes.getD index 0 := by
  rw [Vector.getElem?_eq_getElem bound, Option.getD_some, getElem_ofBytes]

theorem getD_unpackAll_words (bytes : List UInt8) {count index : Nat} (few : count ≤ 16) :
    (Word.unpackAll ((List.range count).map (ofBytes bytes).word)).getD index 0 =
      if index < 4 * count then bytes.getD index 0 else 0 := by
  rw [Word.getD_unpackAll]
  by_cases carried : index < 4 * count
  · have within : index / 4 < count := by omega
    have present : ((List.range count).map (ofBytes bytes).word).getD (index / 4) 0 =
        (ofBytes bytes).word (index / 4) := by
      simp [List.getD_eq_getElem?_getD, within]
    have place : index % 4 = 0 ∨ index % 4 = 1 ∨ index % 4 = 2 ∨ index % 4 = 3 := by omega
    rw [present, if_pos carried, word, Word.bytes_ofBytes, getElem?_ofBytes _ (by omega),
      getElem?_ofBytes _ (by omega), getElem?_ofBytes _ (by omega), getElem?_ofBytes _ (by omega)]
    rcases place with place | place | place | place <;> rw [place]
    · rw [show 4 * (index / 4) = index by omega]
      rfl
    · rw [show 4 * (index / 4) + 1 = index by omega]
      rfl
    · rw [show 4 * (index / 4) + 2 = index by omega]
      rfl
    · rw [show 4 * (index / 4) + 3 = index by omega]
      rfl
  · have beyond : ((List.range count).map (ofBytes bytes).word).getD (index / 4) 0 = 0 := by
      have outside : count ≤ index / 4 := by omega
      simp [List.getD_eq_getElem?_getD, outside]
    rw [beyond, if_neg carried, Word.getD_bytes_zero]

end Payload

namespace Draft

theorem getD_carried (draft : Draft) (length capacity index : Nat) :
    (draft.carried length capacity).getD index 0 =
      if index < capacity then draft.content.bytes.getD index 0 else 0 := by
  rw [carried, List.getD_eq_getElem?_getD, List.getElem?_take]
  split
  · by_cases given : index < draft.content.bytes.length
    · rw [List.getElem?_append_left given, List.getD_eq_getElem?_getD]
    · rw [List.getElem?_append_right (by omega), List.getElem?_replicate,
        List.getD_eq_getElem?_getD, List.getElem?_eq_none (by omega)]
      split <;> rfl
  · rfl

theorem length_carried (draft : Draft) {length : Nat} (capacity : Nat)
    (fits : draft.content.bytes.length ≤ length) :
    (draft.carried length capacity).length = min length capacity := by
  simp [carried]
  omega

end Draft

namespace Payload

theorem ofBytes_congr {first second : List UInt8}
    (same : ∀ index < 64, first.getD index 0 = second.getD index 0) :
    ofBytes first = ofBytes second := by
  apply Vector.ext
  intro index bound
  rw [getElem_ofBytes, getElem_ofBytes, same index bound]

theorem take_ofBytes_of_le (bytes : List UInt8) {count : Nat} (enough : bytes.length ≤ count)
    (bound : count ≤ 64) :
    (ofBytes bytes).toList.take count = bytes ++ List.replicate (count - bytes.length) 0 := by
  apply List.ext_getElem
  · rw [List.length_take, Vector.length_toList, List.length_append, List.length_replicate]
    omega
  · intro index _ _
    rw [List.getElem_append]
    split
    next given => simp [getElem_ofBytes, given]
    next beyond => simp [getElem_ofBytes, Nat.not_lt.1 beyond]

theorem take_ofBytes (bytes : List UInt8) (short : bytes.length ≤ 64) :
    (ofBytes bytes).toList.take bytes.length = bytes := by
  rw [take_ofBytes_of_le bytes (Nat.le_refl _) short, Nat.sub_self, List.replicate_zero,
    List.append_nil]

end Payload

namespace Length

theorem bytes_le_length (content : Content) : content.bytes.length ≤ content.length := by
  cases content <;> simp [Content.bytes, Content.length]

end Length

namespace Message

theorem reading_eq {draft : Draft} {dlc : Nat} {message : Message} {size : DataSize}
    (coded : Length.code? draft.content.isFd draft.content.length = some dlc)
    (shown : draft.Shown dlc message.control) (plain : draft.content.isRemote = false)
    (ident : message.ident = draft.id.toWord) (capacity : message.capacity = size.bytes)
    (payload : message.payload = .ofWords ((List.range (min message.wordCount size.payloadWords)).map
      (Payload.ofBytes draft.content.bytes).word)) {overrun : Bool}
    (code : message.code = if overrun then .rxOverrun else .rxFull) :
    message.reading = draft.reading dlc size.bytes overrun message.timestamp := by
  have fd : message.isFd = draft.content.isFd := shown.edl
  have remote : message.isRemote = false := shown.rtr.trans plain
  have length : message.length = Length.ofCode draft.content.isFd dlc := by
    rw [Message.length, fd, lengthCode, shown.dlc]
  have fits := Nat.le_trans (Length.bytes_le_length draft.content) (Length.le_ofCode coded)
  have bounded := Length.ofCode_le draft.content.isFd dlc
  have words := size.four_mul_payloadWords
  rw [← length] at fits bounded
  have carried : message.payload = .ofBytes (draft.carried message.length size.bytes) := by
    rw [payload, Payload.ofWords]
    apply Payload.ofBytes_congr
    intro index bound
    have few : min message.wordCount size.payloadWords ≤ 16 := by
      rw [wordCount]
      omega
    rw [Payload.getD_unpackAll_words _ few, draft.getD_carried, wordCount]
    by_cases given : index < draft.content.bytes.length
    · by_cases room : index < size.bytes
      · rw [if_pos (by omega), if_pos room]
      · rw [if_neg (by omega), if_neg room]
    · have zero : draft.content.bytes.getD index 0 = 0 := by
        rw [List.getD_eq_getElem?_getD, List.getElem?_eq_none (by omega), Option.getD_none]
      rw [zero, ite_self, ite_self]
  have long := draft.length_carried size.bytes fits
  have data : message.data = draft.carried message.length size.bytes := by
    rw [Message.data, remote, if_neg Bool.false_ne_true, carried, capacity, ← long]
    exact Payload.take_ofBytes _ (by omega)
  have id : message.id = draft.id := by
    rw [Message.id, isExtended, shown.ide, ident, Identifier.ofWord_toWord]
  simp only [reading, Draft.reading, id, fd, data, remote, carried, length, lengthCode, shown.dlc]
  have truncated : message.truncated = decide (size.bytes < message.length) := by
    rw [Message.truncated, remote, capacity]
    rfl
  have lost : message.overrun = overrun := by
    rw [Message.overrun, code]
    cases overrun <;> rfl
  rw [switchesRate, shown.brs, senderPassive, shown.esi, truncated, lost, length, code]

end Message

end BufferedCan
