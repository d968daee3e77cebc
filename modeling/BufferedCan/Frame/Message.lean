import BufferedCan.Buffer.Code
import BufferedCan.Frame.Identifier
import BufferedCan.Word.Bytes

/-!
A message is a frame in the form in which a message buffer holds it: a control word, an identifier
word and the payload. What the frame says is decoded from the two words.

A frame announces the length of its data as a four bit code. Classic frames have codes for up to eight
bytes; frames with flexible data rate go on in growing steps up to 64.
-/

namespace BufferedCan

namespace Length

def maxBytes : Nat := 64

def ofCode (fd : Bool) (code : Nat) : Nat :=
  if code ≤ 8 then code
  else if !fd then 8
  else match code with
    | 9 => 12
    | 10 => 16
    | 11 => 20
    | 12 => 24
    | 13 => 32
    | 14 => 48
    | _ => 64

/-- The smallest code that announces at least `length` bytes, if there is one. -/
def code? (fd : Bool) (length : Nat) : Option Nat :=
  if length ≤ 8 then some length
  else if !fd then none
  else if length ≤ 12 then some 9
  else if length ≤ 16 then some 10
  else if length ≤ 20 then some 11
  else if length ≤ 24 then some 12
  else if length ≤ 32 then some 13
  else if length ≤ 48 then some 14
  else if length ≤ 64 then some 15
  else none

end Length

abbrev Payload := Vector UInt8 64

namespace Payload

def ofBytes (bytes : List UInt8) : Payload :=
  let values := bytes.toArray
  Vector.ofFn fun index => values.getD index 0

def ofWords (words : List UInt32) : Payload :=
  ofBytes (Word.unpackAll words)

def word (payload : Payload) (index : Nat) : UInt32 :=
  Word.ofBytes (payload[4 * index]?.getD 0) (payload[4 * index + 1]?.getD 0)
    (payload[4 * index + 2]?.getD 0) (payload[4 * index + 3]?.getD 0)

theorem getElem_ofBytes (bytes : List UInt8) (index : Nat) (bound : index < 64) :
    (ofBytes bytes)[index] = bytes.getD index 0 := by
  simp [ofBytes, Array.getD_eq_getD_getElem?]

end Payload

structure Message where
  control : UInt32
  ident : UInt32
  payload : Payload
  /-- Payload bytes that the buffer behind the message holds. -/
  capacity : Nat
  deriving DecidableEq

namespace Message

def isFd (message : Message) : Bool := MbCs.edl.isSet message.control

def switchesRate (message : Message) : Bool := MbCs.brs.isSet message.control

def senderPassive (message : Message) : Bool := MbCs.esi.isSet message.control

def isExtended (message : Message) : Bool := MbCs.ide.isSet message.control

def isRemote (message : Message) : Bool := MbCs.rtr.isSet message.control

def code (message : Message) : BufferCode := .ofBits (MbCs.code.get message.control)

def timestamp (message : Message) : Nat := MbCs.timestamp.get message.control

def lengthCode (message : Message) : Nat := MbCs.dlc.get message.control

def length (message : Message) : Nat := Length.ofCode message.isFd message.lengthCode

def id (message : Message) : Identifier := .ofWord message.isExtended message.ident

def wordCount (message : Message) : Nat := (message.length + 3) / 4

def word (message : Message) (index : Nat) : UInt32 := message.payload.word index

def words (message : Message) : List UInt32 := (List.range message.wordCount).map message.word

def word? (message : Message) (index : Nat) : Option UInt32 :=
  if index < 16 then some (message.word index) else none

def data (message : Message) : List UInt8 :=
  if message.isRemote then []
  else message.payload.toList.take (min message.length message.capacity)

def overrun (message : Message) : Bool := message.code == .rxOverrun

def truncated (message : Message) : Bool :=
  !message.isRemote && message.capacity < message.length

end Message

end BufferedCan
