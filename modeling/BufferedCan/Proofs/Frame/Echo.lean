import BufferedCan.Proofs.Frame.Decoding
import BufferedCan.Proofs.Frame.Fidelity

/-! Every message that is read from a buffer can be sent on. Whatever the buffer holds, the length of the
data that is there is one that a frame of the same format announces, so nothing is added to it. -/

namespace BufferedCan

namespace Length

theorem min_bytes_mem_announceable (size : DataSize) {fd : Bool} {length : Nat}
    (member : length ∈ announceable fd) : min length size.bytes ∈ announceable fd := by
  obtain ⟨code, bound, rfl⟩ := mem_announceable_iff.1 member
  revert code
  cases fd <;> cases size <;> decide

theorem le_limit_of_mem {fd : Bool} {length : Nat} (member : length ∈ announceable fd) :
    length ≤ limit fd := by
  obtain ⟨code, bound, rfl⟩ := mem_announceable_iff.1 member
  exact ofCode_le_limit fd bound

theorem Shortest.eq_of_mem {fd : Bool} {needed length : Nat} (shortest : Shortest fd needed length)
    (member : needed ∈ Length.announceable fd) : length = needed :=
  Nat.le_antisymm (shortest.least needed member (Nat.le_refl _)) shortest.enough

end Length

namespace Payload

theorem take_ofWords_map_word (payload : Payload) {count length : Nat} (few : count ≤ 16)
    (enough : length ≤ 4 * count) :
    (ofWords ((List.range count).map payload.word)).toList.take length =
      payload.toList.take length := by
  have whole : payload = ofBytes payload.toList := by
    apply Vector.ext
    intro index bound
    simp [getElem_ofBytes, bound]
  apply List.ext_getElem
  · simp
  · intro index within _
    rw [List.length_take, Vector.length_toList, Nat.lt_min] at within
    have carried : (Word.unpackAll ((List.range count).map payload.word)).getD index 0 =
        payload.toList.getD index 0 := by
      rw [whole, getD_unpackAll_words _ few, if_pos (by omega), ← whole]
    simp only [ofWords, List.getElem_take, Vector.getElem_toList, getElem_ofBytes, carried]
    simp [within.2]

end Payload

namespace Draft

theorem Encodes.exact {draft : Draft} {message : Message} (encodes : draft.Encodes message)
    (member : draft.content.length ∈ Length.announceable draft.content.isFd) :
    message.length = draft.content.length ∧ message.data = draft.content.bytes := by
  have length := encodes.length.eq_of_mem member
  refine ⟨length, ?_⟩
  rw [encodes.data, length, Nat.sub_self, List.replicate_zero, List.append_nil]
  split
  next remote => rw [Content.bytes_eq_nil remote]
  next => rfl

theorem capacity_of_encode? {draft : Draft} {message : Message}
    (encoded : draft.encode? = some message) : message.capacity = Length.maxBytes := by
  obtain ⟨_, _, rfl⟩ := Option.map_eq_some_iff.1 encoded
  rfl

end Draft

namespace Message

structure SameFrame (message other : Message) : Prop where
  id : message.id = other.id
  lengthCode : message.lengthCode = other.lengthCode
  isFd : message.isFd = other.isFd
  switchesRate : message.switchesRate = other.switchesRate
  senderPassive : message.senderPassive = other.senderPassive
  isRemote : message.isRemote = other.isRemote

theorem SameFrame.length {message other : Message} (same : message.SameFrame other) :
    message.length = other.length := by
  rw [Message.length, same.isFd, same.lengthCode, Message.length]

/-- What a buffer of that size gives back after the message was put into it, when its control word has
got that code and time stamp. -/
def readBack (message : Message) (size : DataSize) (code time : Nat) : Message :=
  .ofWords size (MbCs.timestamp.set time (MbCs.code.set code message.control)) message.ident
    ((List.range (min message.wordCount size.payloadWords)).map message.word)

section
variable (message : Message) (size : DataSize) (code time : Nat)

theorem get_control_readBack {field : Field} (apartTime : field.Disjoint MbCs.timestamp)
    (apartCode : field.Disjoint MbCs.code) :
    field.get (message.readBack size code time).control = field.get message.control := by
  rw [readBack, ofWords, Field.get_set_of_disjoint apartTime, Field.get_set_of_disjoint apartCode]

theorem isSet_control_readBack {field : Field} (apartTime : field.Disjoint MbCs.timestamp)
    (apartCode : field.Disjoint MbCs.code) :
    field.isSet (message.readBack size code time).control = field.isSet message.control := by
  rw [Field.isSet, message.get_control_readBack size code time apartTime apartCode, Field.isSet]

theorem sameFrame_readBack : (message.readBack size code time).SameFrame message where
  id := by
    rw [id, isExtended, message.isSet_control_readBack size code time (by decide) (by decide)]
    rfl
  lengthCode := message.get_control_readBack size code time (by decide) (by decide)
  isFd := message.isSet_control_readBack size code time (by decide) (by decide)
  switchesRate := message.isSet_control_readBack size code time (by decide) (by decide)
  senderPassive := message.isSet_control_readBack size code time (by decide) (by decide)
  isRemote := message.isSet_control_readBack size code time (by decide) (by decide)

theorem data_readBack (whole : message.capacity = Length.maxBytes) :
    (message.readBack size code time).data =
      message.data.take (min message.length size.bytes) := by
  have same := message.sameFrame_readBack size code time
  have short : message.length ≤ Length.maxBytes := Length.ofCode_le _ _
  have four := size.four_mul_payloadWords
  have room : (message.readBack size code time).capacity = size.bytes := rfl
  have words : min message.length size.bytes ≤ 4 * min message.wordCount size.payloadWords ∧
      min message.wordCount size.payloadWords ≤ 16 := by
    rw [wordCount]
    rw [Length.maxBytes] at short
    omega
  have taken : (message.readBack size code time).payload.toList.take (min message.length size.bytes) =
      message.payload.toList.take (min message.length size.bytes) :=
    message.payload.take_ofWords_map_word words.2 words.1
  rw [data, same.isRemote, same.length, room, taken, data, whole, Nat.min_eq_left short]
  split
  · rw [List.take_nil]
  · rw [List.take_take]
    congr 1
    omega

end

/-- The echo says what the message says. It is sent from here, so it does not tell the state of the first
sender, and there is no more data in it than the message has. -/
structure Echoes (message echo : Message) : Prop where
  id : echo.id = message.id
  isFd : echo.isFd = message.isFd
  data : echo.data = message.data
  isRemote : echo.isRemote = (!message.isFd && message.isRemote)
  length : echo.length = if echo.isRemote then message.length else message.data.length
  switchesRate : echo.switchesRate = (message.isFd && message.switchesRate)
  senderPassive : echo.senderPassive = false

theorem length_mem_announceable (message : Message) :
    message.length ∈ Length.announceable message.isFd :=
  Length.mem_announceable_iff.2 ⟨message.lengthCode, Field.get_lt _ _, rfl⟩

theorem length_data_le_length (message : Message) : message.data.length ≤ message.length := by
  rw [data]
  split
  · exact Nat.zero_le _
  · rw [List.length_take]
    omega

section
variable {message : Message} {size : DataSize} (room : message.capacity = size.bytes)
include room

theorem length_data_le : message.data.length ≤ size.bytes := by
  rw [data, room]
  split
  · exact Nat.zero_le _
  · rw [List.length_take]
    omega

theorem length_data_mem_announceable :
    message.data.length ∈ Length.announceable message.isFd := by
  have short : message.length ≤ 64 := Length.ofCode_le _ _
  rw [data, room]
  split
  · cases message.isFd <;> decide
  · -- Data that is cut off is as long as the buffer, and such a length can be announced too.
    rw [List.length_take, Vector.length_toList, Nat.min_eq_left (by omega)]
    exact Length.min_bytes_mem_announceable size message.length_mem_announceable

end

/-! What the echo of a message asks for. -/

section
variable (message : Message)

theorem isFd_content_echo : message.echo.content.isFd = message.isFd := by
  unfold echo
  cases message.isFd <;> cases message.isRemote <;> rfl

theorem isRemote_content_echo :
    message.echo.content.isRemote = (!message.isFd && message.isRemote) := by
  unfold echo
  cases message.isFd <;> cases message.isRemote <;> rfl

theorem switchesRate_content_echo :
    message.echo.content.switchesRate = (message.isFd && message.switchesRate) := by
  unfold echo
  cases message.isFd <;> cases message.isRemote <;> rfl

theorem forcesPassive_content_echo : message.echo.content.forcesPassive = false := by
  unfold echo
  cases message.isFd <;> cases message.isRemote <;> rfl

theorem bytes_content_echo : message.echo.content.bytes = message.data := by
  unfold echo data
  cases message.isFd <;> cases message.isRemote <;> rfl

theorem length_content_echo : message.echo.content.length =
    if message.echo.content.isRemote then message.length else message.data.length := by
  unfold echo
  cases message.isFd <;> cases message.isRemote <;> rfl

end

section
variable {message : Message} {size : DataSize} (room : message.capacity = size.bytes)
include room

theorem length_content_echo_mem_announceable :
    message.echo.content.length ∈ Length.announceable message.echo.content.isFd := by
  rw [isFd_content_echo, length_content_echo]
  split
  · exact message.length_mem_announceable
  · exact length_data_mem_announceable room

theorem exists_encode?_echo : ∃ echo, message.echo.encode? = some echo :=
  Option.isSome_iff_exists.1 <| (Draft.isSome_encode?_iff _).2 <|
    Length.le_limit_of_mem (length_content_echo_mem_announceable room)

theorem echoes {echo : Message} (encoded : message.echo.encode? = some echo) :
    message.Echoes echo := by
  have encodes := Draft.encodes encoded
  have exact := encodes.exact (length_content_echo_mem_announceable room)
  refine ⟨encodes.id, encodes.isFd.trans message.isFd_content_echo,
    exact.2.trans message.bytes_content_echo,
    encodes.isRemote.trans message.isRemote_content_echo, ?_,
    encodes.switchesRate.trans message.switchesRate_content_echo,
    encodes.senderPassive.trans message.forcesPassive_content_echo⟩
  rw [exact.1, length_content_echo, encodes.isRemote]

theorem echo_readBack {echo : Message} (echoes : message.Echoes echo)
    (whole : echo.capacity = Length.maxBytes) (code time : Nat) :
    (echo.readBack size code time).echo = message.echo := by
  have same := echo.sameFrame_readBack size code time
  have data : (echo.readBack size code time).data = message.data := by
    have fits := length_data_le room
    have carried := echo.length_data_le_length
    rw [data_readBack _ _ _ _ whole, echoes.data]
    rw [echoes.data] at carried
    exact List.take_of_length_le (Nat.le_min.2 ⟨carried, fits⟩)
  unfold Message.echo
  rw [same.id, echoes.id, same.isFd, echoes.isFd, data, same.switchesRate, echoes.switchesRate,
    same.isRemote, same.length, echoes.length, echoes.isRemote]
  cases message.isFd <;> cases message.isRemote <;> rfl

end

/-- Whatever is in a buffer, the message read from it can be sent on. The echo says what the message
said, and echoing it again changes nothing. -/
theorem exists_faithful_echo (size : DataSize) (control ident : UInt32) (words : List UInt32) :
    ∃ echo, (ofWords size control ident words).echo.encode? = some echo ∧
      (ofWords size control ident words).Echoes echo ∧
      ∀ code time, (echo.readBack size code time).echo.encode? = some echo := by
  have room : (ofWords size control ident words).capacity = size.bytes := rfl
  obtain ⟨echo, encoded⟩ := exists_encode?_echo room
  have said := echoes room encoded
  refine ⟨echo, encoded, said, ?_⟩
  intro code time
  rw [echo_readBack room said (Draft.capacity_of_encode? encoded) code time, encoded]

/-- Of 64 announced bytes the buffer holds eight, and eight are sent on. -/
example : (ofWords .bytes8 0x800F0000 0 [1, 2]).echo.encode?.map (fun echo => (echo.length, echo.data)) =
    some (8, [0, 0, 0, 1, 0, 0, 0, 2]) := rfl

end Message

end BufferedCan
