import BufferedCan.Frame.Message

/-!
A draft describes a frame to be sent. Encoding it gives the message that a transmit buffer takes, and
a received message can be turned back into a draft with the same content.
-/

namespace BufferedCan

inductive Content
  | data (bytes : List UInt8)
  | remote (length : Nat)
  | flexible (bytes : List UInt8) (switchRate forcePassive : Bool)
  deriving DecidableEq, Repr

namespace Content

def isFd : Content → Bool
  | flexible .. => true
  | _ => false

def isRemote : Content → Bool
  | remote _ => true
  | _ => false

def switchesRate : Content → Bool
  | flexible _ switchRate _ => switchRate
  | _ => false

def forcesPassive : Content → Bool
  | flexible _ _ forcePassive => forcePassive
  | _ => false

def bytes : Content → List UInt8
  | data bytes => bytes
  | remote _ => []
  | flexible bytes _ _ => bytes

def length : Content → Nat
  | data bytes => bytes.length
  | remote length => length
  | flexible bytes _ _ => bytes.length

end Content

structure Draft where
  id : Identifier
  content : Content
  deriving DecidableEq, Repr

namespace Draft

def control (draft : Draft) (lengthCode : Nat) : UInt32 :=
  MbCs.dlc.set lengthCode <| MbCs.rtr.put draft.content.isRemote <|
    MbCs.ide.put draft.id.isExtended <| MbCs.srr.put true <|
    MbCs.esi.put draft.content.forcesPassive <| MbCs.brs.put draft.content.switchesRate <|
    MbCs.edl.put draft.content.isFd 0

def encode? (draft : Draft) : Option Message :=
  (Length.code? draft.content.isFd draft.content.length).map fun lengthCode =>
    { control := draft.control lengthCode
      ident := draft.id.toWord
      payload := .ofBytes draft.content.bytes
      capacity := Length.maxBytes }

end Draft

namespace Message

def ofData? (id : Identifier) (bytes : List UInt8) : Option Message :=
  Draft.encode? ⟨id, .data bytes⟩

def ofRequest? (id : Identifier) (lengthCode : Nat) : Option Message :=
  if lengthCode ≤ 15 then Draft.encode? ⟨id, .remote (Length.ofCode false lengthCode)⟩ else none

def echo (message : Message) : Draft where
  id := message.id
  content :=
    if message.isFd then .flexible message.data message.switchesRate false
    else if message.isRemote then .remote message.length
    else .data message.data

end Message

end BufferedCan
