import BufferedCan.Proofs.Cipher.Aes
import BufferedCan.Proofs.Exchange.Conversation
import BufferedCan.Proofs.Exchange.Match

/-! What a conversation over a command link brings across. Ends that agree on encryption understand each
other, whatever else happens. Ends that disagree do not, but only one of them is sure to notice. -/

namespace BufferedCan

open CommandLink

def Transfer.message (transfer : Transfer) : Message where
  control := transfer.control
  ident := transfer.ident
  payload := .ofWords transfer.words
  capacity := Length.maxBytes

theorem Transfer.Carries.data {transfer : Transfer} {draft : Draft} {dlc : Nat}
    (carries : transfer.Carries draft dlc) :
    transfer.message.data = draft.carried (Length.ofCode draft.content.isFd dlc) Length.maxBytes := by
  have plain : transfer.message.isRemote = false := carries.shown.rtr.trans carries.plain
  have flexible : transfer.message.isFd = draft.content.isFd := carries.shown.edl
  have code : transfer.message.lengthCode = dlc := carries.shown.dlc
  have length : transfer.message.length = Length.ofCode draft.content.isFd dlc := by
    rw [Message.length, flexible, code]
  have fits := Nat.le_trans (Length.bytes_le_length draft.content) (Length.le_ofCode carries.coded)
  have small := Length.ofCode_le draft.content.isFd dlc
  have capacity : transfer.message.capacity = 64 := rfl
  rw [Message.data, plain, if_neg Bool.false_ne_true, length, capacity]
  apply List.ext_getElem
  · rw [draft.length_carried _ fits, List.length_take, Vector.length_toList]
    simp only [Length.maxBytes]
    omega
  · intro index inside other
    rw [List.length_take, Vector.length_toList] at inside
    have below : index < 64 := by omega
    have word := carries.words (index / 4) (by omega)
    have whole := @Payload.getD_unpackAll_words draft.content.bytes 16 index (Nat.le_refl 16)
    have place : ((List.range 16).map (Payload.ofBytes draft.content.bytes).word).getD (index / 4) 0 =
        (Payload.ofBytes draft.content.bytes).word (index / 4) := by
      have few : index / 4 < 16 := by omega
      simp [List.getD_eq_getElem?_getD, few]
    have sent : (draft.carried (Length.ofCode draft.content.isFd dlc) Length.maxBytes).getD index 0 =
        draft.content.bytes.getD index 0 := by
      rw [draft.getD_carried, if_pos (show index < Length.maxBytes from below)]
    rw [List.getD_eq_getElem?_getD, List.getElem?_eq_getElem other, Option.getD_some] at sent
    rw [Word.getD_unpackAll, place, if_pos (by omega), ← word, ← Word.getD_unpackAll] at whole
    rw [List.getElem_take, Vector.getElem_toList, sent, ← whole]
    exact Payload.getElem_ofBytes _ index below

namespace Line

variable {line : Line} {key : Block} {seats : List Seat} {talk : Talk} {ledger : Ledger}
  {network : Network}

structure Posted (line : Line) (key : Block) (transfer : Transfer) (parcel : Parcel) : Prop where
  sender : transfer.sender = line.place parcel.sender
  id : transfer.message.id = .standard parcel.sender.transmitId
  flexible : transfer.message.isFd = true
  switches : transfer.message.switchesRate = true
  data : transfer.message.data = Link.payload line.cipher key parcel.encrypted parcel.command

/-- What is promised of a conversation: the wire carries the frames of the ledger and no others, and each
end understands what it takes, as long as its setting is that of the sender at the time. -/
structure Delivers (line : Line) (key : Block) (talk : Talk) (ledger : Ledger) : Prop where
  encryption : ∀ role, (talk.link role).encryption = ledger.encryption role
  pending : List.Forall₂ (line.Posted key) talk.wire.pending ledger.waiting
  delivers : talk.wire.deliverNext.1 = .ok (!ledger.waiting.isEmpty)
  sends : ∀ role command, (line.send talk role command).1 =
    .ok (if ledger.busy role then .error .wouldBlock else .ok ())
  receives : ∀ role, ∃ found, (line.receive talk role).1 = .ok found ∧
    (found = none ↔ ledger.inbox role = none) ∧
    found ≠ some (.discarded .unexpectedId) ∧ found ≠ some (.discarded .decryptionFailed) ∧
    ∀ parcel, ledger.inbox role = some parcel →
      parcel.encrypted = (talk.link role).encryption → found = some (.command parcel.command)

theorem posted_of_queued {system : System} {transfer : Transfer} {parcel : Parcel}
    (queued : system.Queued transfer (line.frame key parcel)) : line.Posted key transfer parcel where
  sender := queued.sender
  id := by
    have carries := queued.carries
    have standard : transfer.message.isExtended = false := carries.shown.ide
    have ident : transfer.message.ident =
      (Identifier.standard parcel.sender.transmitId).toWord := carries.ident
    rw [Message.id, standard, ident]
    exact Identifier.ofWord_toWord (.standard parcel.sender.transmitId)
  flexible := queued.carries.shown.edl
  switches := queued.carries.shown.brs
  data := by
    rw [queued.carries.data]
    exact line.carried_frame key parcel (by decide)

theorem Follows.delivers (follows : line.Follows key seats talk ledger network)
    (inverts : line.cipher.Inverts) : line.Delivers key talk ledger where
  encryption := follows.encryption
  pending := by
    have queue := follows.represents.queue
    rw [follows.queue, List.forall₂_map_right_iff] at queue
    exact queue.imp fun _ _ => posted_of_queued
  delivers := follows.deliver.1
  sends role command := (follows.send role command).1
  receives role := by
    refine ⟨_, (follows.receive role).1, by simp, ?_, ?_, ?_⟩
    · cases ledger.inbox role with
      | none => simp
      | some parcel => simpa using (Link.reported_valid _ _).1
    · cases ledger.inbox role with
      | none => simp
      | some parcel => simpa using (Link.reported_valid _ _).2
    · intro parcel held agreed
      rw [follows.encryption] at agreed
      rw [held, Option.map_some, ← agreed, Link.reported_agreed inverts]

end Line

/-! Two controllers that are set up for the two roles. -/

namespace CommandLink

def linking : List Action :=
  [.attach .reset .peripheral 500000, .attach .reset .peripheral 500000,
    .adjust 0 (settings .master (.ofBitRate 500000)), .finalize 0,
    .adjust 1 (settings .slave (.ofBitRate 500000)), .finalize 1]

def served : Role → Running
  | .master =>
    { clock := .peripheral
      settings := settings .master (.ofBitRate 500000)
      transmitBuffer := ⟨.bytes16, 1, by decide⟩
      receiveBuffer := ⟨.bytes16, 0, by decide⟩ }
  | .slave =>
    { clock := .peripheral
      settings := settings .slave (.ofBitRate 500000)
      transmitBuffer := ⟨.bytes16, 0, by decide⟩
      receiveBuffer := ⟨.bytes16, 1, by decide⟩ }

theorem seats_linking : (System.empty.after linking).seats =
    [.running (served .master), .running (served .slave)] := by
  decide +kernel

def pair : Line where
  place
    | .master => 0
    | .slave => 1
  cipher := Aes.cipher

def keyed (key : Block) : Engine := Engine.reset.setKey KeySlot.key1.toByte.toNat key

theorem holds_keyed (key : Block) : (keyed key).Holds .key1 key where
  alive := rfl
  held := by
    rw [Engine.key?, keyed, Engine.setKey, Vector.getElem?_setIfInBounds_self]
    rfl

def pairedOn (wire : Wire) (key : Block) : Talk where
  wire := wire
  link role := { running := served role, role := role, key := .key1, pollLimit := 1 }
  engine _ := keyed key

theorem wire_pairedOn (wire : Wire) (key : Block) : (pairedOn wire key).wire = wire := rfl

def paired (key : Block) : Talk := pairedOn (System.empty.after linking).wire key

theorem silent_linking : ∀ action ∈ linking, action.Silent := by
  simp [linking, Action.Silent]

theorem opens_pair (key : Block) : pair.Opens key linking (paired key) where
  wire := wire_pairedOn _ key
  silent := silent_linking
  seat role := by
    rw [System.seat, seats_linking]
    cases role <;> rfl
  role role := by
    cases role <;> rfl
  built role := by
    refine ⟨.ofBitRate 500000, ?_⟩
    cases role <;> rfl
  holds _ := holds_keyed key

end CommandLink

theorem Link.reported_encrypted {cipher : BlockCipher} {key : Block} (command : LedCommand) :
    reported cipher key false (payload cipher key true command) =
      ofByte (cipher.encrypt key (plainBlock command))[0] := by
  obtain ⟨first, rest, filled⟩ : ∃ first rest,
      (cipher.encrypt key (plainBlock command)).toList = first :: rest :=
    List.exists_cons_of_length_eq_add_one (Vector.length_toList ..)
  have same : (cipher.encrypt key (plainBlock command))[0] = first := by
    rw [← Vector.getElem_toList (by simp)]
    simp [filled]
  unfold reported
  rw [if_neg Bool.false_ne_true, payload, if_pos rfl, filled, same]

namespace Line

/-- Whatever the ends do, in whatever order, and however often they change their settings: a frame that an
end takes with the setting with which it was sent is the command that the other end sent. -/
theorem commands_delivered (line : Line) (inverts : line.cipher.Inverts) (key : Block)
    (before : List Action) (talk : Talk) (opens : line.Opens key before talk) (moves : List Move) :
    line.Delivers key (line.after talk moves) (talk.ledger.after talk.alone moves) := by
  obtain ⟨seats, network, follows⟩ := opens.follows
  obtain ⟨next, last⟩ := follows.after moves
  exact last.delivers inverts

theorem pair_delivers :
    pair.cipher.Inverts ∧ pair.Opens .zero linking (paired .zero) ∧
      (pair.receive (pair.after (paired .zero) [.send .master .led1Change, .toggleEncryption .slave,
        .deliverNext, .toggleEncryption .slave]) .slave).1 = .ok (some (.command .led1Change)) := by
  have delivered := commands_delivered pair Aes.inverts .zero linking (paired .zero) (opens_pair .zero)
    [.send .master .led1Change, .toggleEncryption .slave, .deliverNext, .toggleEncryption .slave]
  obtain ⟨found, received, -, -, -, agreed⟩ := delivered.receives .slave
  refine ⟨Aes.inverts, opens_pair .zero, ?_⟩
  rw [received, agreed ⟨.master, .led1Change, true⟩ rfl (delivered.encryption .slave).symm]

/-- If its setting is another one, an end that decrypts finds the frame too short. An end that does not
decrypt takes the first byte of the encrypted block for the command, and reports it as unknown unless it
happens to be the byte of a command. -/
theorem disagreement_reported (line : Line) (key : Block) (before : List Action) (talk : Talk)
    (opens : line.Opens key before talk) (moves : List Move) (role : Role) (parcel : Parcel)
    (held : (talk.ledger.after talk.alone moves).inbox role = some parcel)
    (differs : parcel.encrypted ≠ ((line.after talk moves).link role).encryption) :
    let received := (line.receive (line.after talk moves) role).1
    let first := (line.cipher.encrypt key (Link.plainBlock parcel.command))[0]
    (parcel.encrypted = false → received = .ok (some (.discarded (.unexpectedLength 1)))) ∧
      (parcel.encrypted = true → received = .ok (some (
        match LedCommand.ofByte? first with
        | some command => .command command
        | none => .discarded (.unknownCommand first)))) := by
  obtain ⟨seats, network, follows⟩ := opens.follows
  obtain ⟨next, last⟩ := follows.after moves
  have received := (last.receive role).1
  rw [last.encryption] at differs
  rw [held, Option.map_some] at received
  dsimp only
  rw [received]
  cases encrypted : parcel.encrypted with
  | false =>
      rw [encrypted, ne_comm, ne_eq, Bool.not_eq_false] at differs
      rw [differs]
      exact ⟨fun _ => rfl, fun absurd => Bool.noConfusion absurd⟩
  | true =>
      rw [encrypted, ne_comm, ne_eq, Bool.not_eq_true] at differs
      rw [differs, Link.reported_encrypted]
      exact ⟨fun absurd => Bool.noConfusion absurd, fun _ => rfl⟩

theorem pair_disagreement :
    let moves : List Move := [.setEncryption .master false, .send .master .led1Change, .deliverNext]
    pair.Opens .zero linking (paired .zero) ∧
      ((paired .zero).ledger.after (paired .zero).alone moves).inbox .slave =
        some ⟨.master, .led1Change, false⟩ ∧
      false ≠ ((pair.after (paired .zero) moves).link .slave).encryption ∧
      (pair.receive (pair.after (paired .zero) moves) .slave).1 =
        .ok (some (.discarded (.unexpectedLength 1))) := by
  have opens := opens_pair .zero
  have differs : false ≠ ((pair.after (paired .zero) [.setEncryption .master false,
      .send .master .led1Change, .deliverNext]).link .slave).encryption := by
    rw [opens.encryption]
    decide
  have reported := disagreement_reported pair .zero linking (paired .zero) opens
    [.setEncryption .master false, .send .master .led1Change, .deliverNext] .slave
    ⟨.master, .led1Change, false⟩ rfl differs
  exact ⟨opens, rfl, differs, reported.1 rfl⟩

/-- Under this key the encrypted first command begins with the byte of the second one. -/
def confusing : Block := .ofBytes (List.replicate 15 0 ++ [155])

theorem encrypt_confusing :
    (Aes.cipher.encrypt confusing (Link.plainBlock .led0Change))[0] = LedCommand.led1Change.toByte := by
  decide +kernel

/-- An end with encryption off takes an encrypted frame for a command, and not for the one that was sent. -/
theorem pair_misreads :
    let moves : List Move := [.setEncryption .slave false, .send .master .led0Change, .deliverNext]
    pair.Opens confusing linking (paired confusing) ∧
      ((paired confusing).ledger.after (paired confusing).alone moves).inbox .slave =
        some ⟨.master, .led0Change, true⟩ ∧
      ((pair.after (paired confusing) moves).link .slave).encryption = false ∧
      (pair.receive (pair.after (paired confusing) moves) .slave).1 =
        .ok (some (.command .led1Change)) := by
  have opens := opens_pair confusing
  refine ⟨opens, rfl, opens.encryption _ _, ?_⟩
  obtain ⟨seats, network, follows⟩ := opens.follows
  obtain ⟨next, last⟩ := follows.after
    [.setEncryption .slave false, .send .master .led0Change, .deliverNext]
  have received := (last.receive .slave).1
  have reported : Link.reported Aes.cipher confusing false (Link.payload Aes.cipher confusing true
      .led0Change) = .command .led1Change := by
    rw [Link.reported_encrypted, encrypt_confusing]
    rfl
  rw [received]
  exact congrArg (fun found => Except.ok (some found)) reported

end Line

end BufferedCan
