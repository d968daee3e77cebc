import BufferedCan.Proofs.Frame.Reading

/-! What the words of a message buffer say, bit by bit, whatever they are. A buffer may hold less of the
data than its control word announces; then the data ends with what it holds. -/

namespace BufferedCan

def Length.ofControl (control : UInt32) : Nat :=
  Length.ofCode (control.toNat.testBit 31) ((control.toNat >>> 16) % 16)

/-- What is said by the control word, the identifier word and the payload words of a buffer with that
capacity. -/
def Reading.ofWords (capacity : Nat) (control ident : UInt32) (words : List UInt32) : Reading where
  id := if control.toNat.testBit 21 then .extended (BitVec.ofNat 29 ident.toNat)
    else .standard (BitVec.ofNat 11 (ident.toNat >>> 18))
  isFd := control.toNat.testBit 31
  switchesRate := control.toNat.testBit 30
  senderPassive := control.toNat.testBit 29
  isRemote := control.toNat.testBit 20
  lengthCode := (control.toNat >>> 16) % 16
  length := Length.ofControl control
  data := if control.toNat.testBit 20 then []
    else (Word.unpackAll words).take (min (Length.ofControl control) capacity)
  payload := .ofWords words
  truncated := !control.toNat.testBit 20 && decide (capacity < Length.ofControl control)
  overrun := (control.toNat >>> 24) % 16 = 6
  code := .ofBits ((control.toNat >>> 24) % 16)
  timestamp := control.toNat % 0x10000

theorem BufferCode.ofBits_eq_rxOverrun_iff {bits : Nat} (small : bits < 16) :
    ofBits bits = rxOverrun ↔ bits = 6 := by
  revert small bits
  decide

theorem Identifier.ofWord_eq (extended : Bool) (word : UInt32) :
    ofWord extended word = if extended then .extended (BitVec.ofNat 29 word.toNat)
      else .standard (BitVec.ofNat 11 (word.toNat >>> 18)) := by
  have long : BitVec.ofNat 29 (MbId.extId.get word) = BitVec.ofNat 29 word.toNat := by
    rw [Field.get, Nat.shiftRight_zero]
    exact BitVec.toNat_inj.1 (by simp [Field.size])
  have short : BitVec.ofNat 11 (MbId.stdId.get word) = BitVec.ofNat 11 (word.toNat >>> 18) := by
    rw [Field.get]
    exact BitVec.toNat_inj.1 (by simp [Field.size])
  rw [ofWord, long, short]

theorem Payload.take_ofWords (words : List UInt32) {count : Nat} (enough : count ≤ 4 * words.length)
    (bound : count ≤ 64) : (ofWords words).toList.take count = (Word.unpackAll words).take count := by
  apply List.ext_getElem
  · rw [List.length_take, List.length_take, Vector.length_toList, Word.length_unpackAll]
    omega
  · intro index _ within
    have present : index < (Word.unpackAll words).length := by
      rw [List.length_take] at within
      omega
    simp [ofWords, getElem_ofBytes, present]

namespace Message

theorem length_eq_ofControl (message : Message) : message.length = Length.ofControl message.control := by
  rw [length, isFd, lengthCode, Field.isSet_bit]
  rfl

def ofWords (size : DataSize) (control ident : UInt32) (words : List UInt32) : Message where
  control := control
  ident := ident
  payload := .ofWords words
  capacity := size.bytes

theorem reading_ofWords (size : DataSize) (control ident : UInt32) {words : List UInt32}
    (count : words.length = min ((Length.ofControl control + 3) / 4) (size.bytes / 4)) :
    (ofWords size control ident words).reading = .ofWords size.bytes control ident words := by
  have length := (ofWords size control ident words).length_eq_ofControl
  have remote : (ofWords size control ident words).isRemote = control.toNat.testBit 20 :=
    Field.isSet_bit _ _ _
  have four := size.four_mul_payloadWords
  rw [DataSize.payloadWords] at four
  have short : Length.ofControl control ≤ 64 := Length.ofCode_le _ _
  have data : (ofWords size control ident words).data =
      (Reading.ofWords size.bytes control ident words).data := by
    rw [Message.data, remote, length, Reading.ofWords, ← Payload.take_ofWords words (by omega) (by omega)]
    rfl
  have code : (ofWords size control ident words).code =
      .ofBits ((control.toNat >>> 24) % 16) := rfl
  have overrun : (ofWords size control ident words).overrun =
      decide ((control.toNat >>> 24) % 16 = 6) := by
    have small : (control.toNat >>> 24) % 16 < 16 := Nat.mod_lt _ (by decide)
    rw [Message.overrun, code, Bool.eq_iff_iff, beq_iff_eq, decide_eq_true_iff,
      BufferCode.ofBits_eq_rxOverrun_iff small]
  have timestamp : (ofWords size control ident words).timestamp = control.toNat % 0x10000 := by
    rw [Message.timestamp, Field.get, Nat.shiftRight_zero]
    rfl
  rw [reading, data, length, code, overrun, timestamp, truncated, remote, length, id,
    Identifier.ofWord_eq, isExtended, isFd, switchesRate, senderPassive, lengthCode, Field.isSet_bit,
    Field.isSet_bit, Field.isSet_bit, Field.isSet_bit]
  rfl

end Message

end BufferedCan
