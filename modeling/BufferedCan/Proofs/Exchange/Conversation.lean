import BufferedCan.Proofs.Exchange.Link
import BufferedCan.Proofs.Network.Silence
import Mathlib.Logic.Function.Basic

/-! A conversation over a command link: both ends send, receive and switch encryption as they like, while
the wire delivers one frame after the other. All that matters is which frames wait, which frame each end has
not taken yet, and the setting under which each was sent. -/

namespace BufferedCan

open CommandLink

namespace CommandLink.Role

def other : Role → Role
  | master => slave
  | slave => master

theorem receiveId_other (role : Role) : role.other.receiveId = role.transmitId := by
  cases role <;> rfl

theorem transmitId_ne_receiveId (role : Role) : role.transmitId ≠ role.receiveId := by
  cases role <;> decide

theorem eq_other_of_ne {first second : Role} (apart : first ≠ second) : first = second.other := by
  cases first <;> cases second <;> first | rfl | exact absurd rfl apart

theorem other_ne (role : Role) : role.other ≠ role := by
  cases role <;> decide

theorem transmitId_other (role : Role) : role.other.transmitId = role.receiveId := by
  cases role <;> rfl

end CommandLink.Role

theorem CommandLink.settings_of_start {σ : Type} (handler : Handler registers σ) {role : Role}
    {frozen : Frozen} {running : Running} {state : σ}
    (built : ((CommandLink.start role frozen).run handler state).1 = .ok (.ok running)) :
    running.settings = settings role frozen.settings :=
  Frozen.settings_of_start handler built

structure Line where
  place : Role → Nat
  cipher : BlockCipher

structure Talk where
  wire : Wire
  link : Role → Link
  engine : Role → Engine

inductive Move
  | deliverNext
  | send (role : Role) (command : LedCommand)
  | receive (role : Role)
  | setEncryption (role : Role) (on : Bool)
  | toggleEncryption (role : Role)

namespace Talk

def change (talk : Talk) (role : Role) (link : Link) : Talk :=
  { talk with link := Function.update talk.link role link }

/-- Whether an end was left in loopback mode, in which it reaches nobody else. -/
def alone (talk : Talk) (role : Role) : Bool := (talk.link role).running.settings.loopback

end Talk

namespace Line

variable (line : Line)

def operate {α : Type} (talk : Talk) (role : Role) (program : Program Link.devices α) :
    Checked α × Talk :=
  match program.runChecked ((Wire.access (line.place role)).checked.both
      (Engine.behindWindow line.cipher)) (talk.wire, talk.engine role) with
  | (outcome, wire, engine) =>
    (outcome, { talk with wire := wire, engine := Function.update talk.engine role engine })

def send (talk : Talk) (role : Role) (command : LedCommand) :
    Checked (Except (Refusal LinkError) Unit) × Talk :=
  line.operate talk role ((talk.link role).send command)

def receive (talk : Talk) (role : Role) : Checked (Option Reception) × Talk :=
  line.operate talk role (talk.link role).receive

def move (talk : Talk) : Move → Talk
  | .deliverNext => { talk with wire := talk.wire.deliverNext.2 }
  | .send role command => (line.send talk role command).2
  | .receive role => (line.receive talk role).2
  | .setEncryption role on => talk.change role ((talk.link role).setEncryption on)
  | .toggleEncryption role => talk.change role (talk.link role).toggleEncryption

def after (talk : Talk) (moves : List Move) : Talk := moves.foldl line.move talk

end Line

structure Parcel where
  sender : Role
  command : LedCommand
  encrypted : Bool

/-- A conversation without frames and bytes. -/
structure Ledger where
  encryption : Role → Bool
  waiting : List Parcel
  inbox : Role → Option Parcel

namespace Ledger

def busy (ledger : Ledger) (role : Role) : Bool :=
  ledger.waiting.any fun parcel => parcel.sender == role

/-- The first frame that waits replaces what the other end has not taken, unless its sender is alone. -/
def deliver (alone : Role → Bool) (ledger : Ledger) : Ledger :=
  match ledger.waiting with
  | [] => ledger
  | parcel :: rest =>
    { ledger with
      waiting := rest
      inbox :=
        if alone parcel.sender then ledger.inbox
        else Function.update ledger.inbox parcel.sender.other (some parcel) }

theorem inbox_deliver {ledger : Ledger} {parcel : Parcel} {rest : List Parcel}
    (waiting : ledger.waiting = parcel :: rest) (alone : Role → Bool) (own : Role) :
    (ledger.deliver alone).inbox own =
      if alone parcel.sender = false ∧ own ≠ parcel.sender then some parcel
      else ledger.inbox own := by
  simp only [deliver, waiting]
  cases alone parcel.sender with
  | true => simp
  | false =>
      by_cases same : own = parcel.sender
      · simp [same, Function.update_of_ne parcel.sender.other_ne.symm]
      · rw [if_neg Bool.false_ne_true, if_pos ⟨rfl, same⟩, Role.eq_other_of_ne same,
          Function.update_self]

def send (ledger : Ledger) (role : Role) (command : LedCommand) : Ledger :=
  if ledger.busy role then ledger
  else { ledger with waiting := ledger.waiting ++ [⟨role, command, ledger.encryption role⟩] }

def take (ledger : Ledger) (role : Role) : Ledger :=
  { ledger with inbox := Function.update ledger.inbox role none }

theorem inbox_take (ledger : Ledger) (role own : Role) :
    (ledger.take role).inbox own = if own = role then none else ledger.inbox own :=
  Function.update_apply ..

def change (ledger : Ledger) (role : Role) (on : Bool) : Ledger :=
  { ledger with encryption := Function.update ledger.encryption role on }

def move (alone : Role → Bool) (ledger : Ledger) : Move → Ledger
  | .deliverNext => ledger.deliver alone
  | .send role command => ledger.send role command
  | .receive role => ledger.take role
  | .setEncryption role on => ledger.change role on
  | .toggleEncryption role => ledger.change role !ledger.encryption role

def after (alone : Role → Bool) (ledger : Ledger) (moves : List Move) : Ledger :=
  moves.foldl (move alone) ledger

end Ledger

/-! The frames of a conversation. -/

def CommandLink.draft (role : Role) (payload : List UInt8) : Draft :=
  ⟨.standard role.transmitId, .flexible payload true false⟩

def Line.frame (line : Line) (key : Block) (parcel : Parcel) : Frame where
  sender := line.place parcel.sender
  draft := draft parcel.sender (Link.payload line.cipher key parcel.encrypted parcel.command)
  lengthCode := if parcel.encrypted then 10 else 1

namespace Line

variable {line : Line} {key : Block} {parcel : Parcel}

theorem length_frame (line : Line) (key : Block) (parcel : Parcel) :
    (line.frame key parcel).length =
      (Link.payload line.cipher key parcel.encrypted parcel.command).length := by
  rw [Link.length_payload, Frame.length, frame]
  cases parcel.encrypted <;> rfl

theorem coded_frame (line : Line) (key : Block) (parcel : Parcel) :
    Length.code? (line.frame key parcel).draft.content.isFd
        (line.frame key parcel).draft.content.length =
      some (line.frame key parcel).lengthCode := by
  change Length.code? true (Link.payload line.cipher key parcel.encrypted parcel.command).length = _
  rw [Link.length_payload, frame]
  cases parcel.encrypted <;> rfl

theorem admitted_frame (line : Line) (key : Block) (parcel : Parcel) {settings : Settings}
    {role : Role} {earlier : Settings} (built : settings = CommandLink.settings role earlier) :
    settings.refusal? (line.frame key parcel).draft.content (line.frame key parcel).length = none := by
  have few : (line.frame key parcel).length ≤ 16 := by
    rw [length_frame, Link.length_payload]
    split <;> omega
  have room : settings.mode.dataSize.bytes = 16 := by
    rw [built]
    rfl
  have mode : settings.mode = .flexible (PingPong.flexibleRate .bytes16) := by
    rw [built]
    rfl
  rw [Settings.refusal?, room, mode, if_neg (Nat.not_lt.mpr few)]
  rfl

theorem carried_frame (line : Line) (key : Block) (parcel : Parcel) {capacity : Nat}
    (room : 16 ≤ capacity) :
    (line.frame key parcel).draft.carried (line.frame key parcel).length capacity =
      Link.payload line.cipher key parcel.encrypted parcel.command := by
  have few : (Link.payload line.cipher key parcel.encrypted parcel.command).length ≤ capacity := by
    rw [Link.length_payload]
    split <;> omega
  have bytes : (line.frame key parcel).draft.content.bytes =
      Link.payload line.cipher key parcel.encrypted parcel.command := rfl
  rw [length_frame, Draft.carried, bytes, Nat.sub_self, List.replicate_zero, List.append_nil,
    List.take_of_length_le few]

theorem reading_frame {member : Member} {role : Role} {earlier : Settings} {arrival : Arrival}
    (built : member.settings = CommandLink.settings role earlier)
    (frame : arrival.frame = line.frame key parcel) :
    (member.reading arrival).id = .standard parcel.sender.transmitId ∧
      (member.reading arrival).data =
        Link.payload line.cipher key parcel.encrypted parcel.command := by
  have room : member.settings.mode.dataSize.bytes = 16 := by
    rw [built]
    rfl
  rw [Member.reading, room, frame]
  exact ⟨rfl, line.carried_frame key parcel (Nat.le_refl 16)⟩

theorem slot_hear_frame (line : Line) (key : Block) (parcel : Parcel) {member : Member} {own : Role}
    {earlier : Settings} (built : member.settings = CommandLink.settings own earlier) :
    (member.hear (line.frame key parcel)).slot.map Arrival.frame =
      if own = parcel.sender then member.slot.map Arrival.frame
      else some (line.frame key parcel) := by
  have follows : member.follows (line.frame key parcel) = true := by
    rw [Member.follows, built]
    rfl
  have receives : member.settings.buffers.receiveId = own.receiveId := by
    rw [built]
    rfl
  have ident : (line.frame key parcel).draft.id = .standard parcel.sender.transmitId := rfl
  rw [Member.hear, if_pos follows]
  dsimp only
  rw [receives, ident]
  by_cases same : own = parcel.sender
  · have other : parcel.sender.transmitId ≠ own.receiveId := by
      rw [same]
      exact parcel.sender.transmitId_ne_receiveId
    rw [if_pos same, if_neg (by simpa using other)]
  · have mine : parcel.sender.transmitId = own.receiveId := by
      rw [Role.eq_other_of_ne same, Role.receiveId_other]
    rw [if_neg same, if_pos (by rw [mine])]
    rfl

end Line

theorem Member.settings_hear (member : Member) (frame : Frame) :
    (member.hear frame).settings = member.settings := by
  unfold hear
  split <;> rfl

theorem Reply.ofTransmit_inj {μ ν : Type} {change : μ → ν}
    {first second : Except (Refusal TransmitError) Unit}
    (same : (Reply.ofTransmit first : Reply μ).map change = .ofTransmit second) : first = second := by
  rcases first with (_ | _) | _ <;> rcases second with (_ | _) | _ <;> cases same <;> rfl

theorem Reply.ofDelivery_inj {μ ν : Type} {change : μ → ν} {outcome : Checked Bool} {any : Bool}
    (same : (Reply.ofDelivery outcome : Reply μ).map change = .delivered any) : outcome = .ok any := by
  cases outcome <;> cases same
  rfl

/-! The invariant: behind the controllers there is an abstract network, and its queue and its slots hold the
frames of the ledger. -/

def Line.Stores (line : Line) (key : Block) (network : Network) (role : Role) (running : Running)
    (parcel : Option Parcel) : Prop :=
  ∃ member, network.node (line.place role) = .running member ∧ member.settings = running.settings ∧
    member.slot.map Arrival.frame = parcel.map (line.frame key)

structure Line.Follows (line : Line) (key : Block) (seats : List Seat) (talk : Talk) (ledger : Ledger)
    (network : Network) : Prop where
  represents : (System.mk talk.wire seats).Represents network
  seat : ∀ role, (System.mk talk.wire seats).seat (line.place role) =
    .running (talk.link role).running
  role : ∀ role, (talk.link role).role = role
  built : ∀ role, ∃ earlier, (talk.link role).running.settings = settings role earlier
  holds : ∀ role, (talk.engine role).Holds (talk.link role).key key
  encryption : ∀ role, (talk.link role).encryption = ledger.encryption role
  queue : network.queue = ledger.waiting.map (line.frame key)
  stores : ∀ role, line.Stores key network role (talk.link role).running (ledger.inbox role)
  sender : ∀ role parcel, ledger.inbox role = some parcel → parcel.sender = role.other

namespace Line.Follows

variable {line : Line} {key : Block} {seats : List Seat} {talk : Talk} {ledger : Ledger}
  {network : Network}

theorem place_inj (follows : line.Follows key seats talk ledger network) {first second : Role}
    (same : line.place first = line.place second) : first = second := by
  -- One controller has one holder, and he listens to one identifier only.
  by_contra apart
  have seat := follows.seat first
  rw [same, follows.seat second, Seat.running.injEq] at seat
  obtain ⟨early, left⟩ := follows.built first
  obtain ⟨late, right⟩ := follows.built second
  rw [← seat, right] at left
  have ids : second.receiveId = first.receiveId :=
    congrArg (fun settings => settings.buffers.receiveId) left
  rw [Role.eq_other_of_ne apart, Role.receiveId_other] at ids
  exact second.transmitId_ne_receiveId ids.symm

theorem busy (follows : line.Follows key seats talk ledger network) (role : Role) :
    network.busy (line.place role) = ledger.busy role := by
  rw [Network.busy, follows.queue, List.any_map, Ledger.busy]
  congr 1
  funext parcel
  change (line.place parcel.sender == line.place role) = (parcel.sender == role)
  by_cases same : parcel.sender = role
  · simp [same]
  · have apart : line.place parcel.sender ≠ line.place role := fun equal =>
      same (follows.place_inj equal)
    simp [same, apart]

theorem loopback (follows : line.Follows key seats talk ledger network) (role : Role) :
    network.loopback (line.place role) = talk.alone role := by
  obtain ⟨member, node, settings, -⟩ := follows.stores role
  rw [Network.loopback, node, Talk.alone, ← settings]

/-! What the ends see, and the invariant from then on. -/

theorem operated (follows : line.Follows key seats talk ledger network) {role : Role} {wire : Wire}
    {engine : Engine} {later : Ledger} {next : Network}
    (represents : (System.mk wire seats).Represents next)
    (kept : engine.Holds (talk.link role).key key) (encryption : later.encryption = ledger.encryption)
    (queue : next.queue = later.waiting.map (line.frame key))
    (stores : ∀ role, line.Stores key next role (talk.link role).running (later.inbox role))
    (sender : ∀ role parcel, later.inbox role = some parcel → parcel.sender = role.other) :
    line.Follows key seats { talk with wire := wire, engine := Function.update talk.engine role engine }
      later next where
  represents := represents
  seat := follows.seat
  role := follows.role
  built := follows.built
  holds own := by
    by_cases same : own = role
    · subst same
      simpa using kept
    · simpa [same] using follows.holds own
  encryption own := by rw [encryption, follows.encryption]
  queue := queue
  stores := stores
  sender := sender

theorem network_send (follows : line.Follows key seats talk ledger network) (role : Role)
    (command : LedCommand) :
    network.step (.send (line.place role) (.standard role.transmitId)
        (Link.payload line.cipher key (ledger.encryption role) command)) =
      (.ofTransmit (if ledger.busy role then .error .wouldBlock else .ok ()), { network with
        queue := (ledger.send role command).waiting.map (line.frame key) }) := by
  obtain ⟨member, node, settings, -⟩ := follows.stores role
  obtain ⟨earlier, built⟩ := follows.built role
  rw [← settings] at built
  have format : network.format (line.place role) (.standard role.transmitId)
      (Link.payload line.cipher key (ledger.encryption role) command) =
        (line.frame key ⟨role, command, ledger.encryption role⟩).draft := by
    rw [Network.format, node]
    dsimp only
    rw [built]
    rfl
  have admitted := line.admitted_frame key ⟨role, command, ledger.encryption role⟩ built
  rw [Frame.length] at admitted
  rw [Network.step, format, Network.transmit, node, line.coded_frame key]
  dsimp only [Frame.length]
  rw [admitted, follows.busy, Ledger.send]
  cases ledger.busy role with
  | true =>
      rw [if_pos rfl, if_pos rfl, if_pos rfl, ← follows.queue]
      rfl
  | false =>
      rw [if_neg Bool.false_ne_true, if_neg Bool.false_ne_true, if_neg Bool.false_ne_true,
        List.map_append, ← follows.queue]
      rfl

theorem send (follows : line.Follows key seats talk ledger network) (role : Role)
    (command : LedCommand) :
    (line.send talk role command).1 =
        .ok (if ledger.busy role then .error .wouldBlock else .ok ()) ∧
      ∃ next, line.Follows key seats (line.send talk role command).2 (ledger.send role command)
        next := by
  obtain ⟨engine, ran, kept⟩ := Link.run_send line.cipher (Wire.access (line.place role)) talk.wire
    (follows.holds role) command
  -- Once the engine is done, the end is a node that sends these bytes.
  have agree := follows.represents.agree_send (line.place role) (.standard role.transmitId)
    (Link.payload line.cipher key (ledger.encryption role) command)
  simp only [System.step, System.call, follows.seat, System.perform] at agree
  rw [follows.network_send role command] at agree
  rw [follows.role, follows.encryption] at ran
  rw [Line.send, Line.operate, ran]
  have outcome := Reply.ofTransmit_inj agree.reply
  dsimp only at outcome ⊢
  rw [outcome]
  constructor
  · cases ledger.busy role <;> rfl
  · have same : (ledger.send role command).encryption = ledger.encryption ∧
        (ledger.send role command).inbox = ledger.inbox := by
      unfold Ledger.send
      split <;> exact ⟨rfl, rfl⟩
    refine ⟨_, follows.operated agree.represents kept same.1 rfl ?_ ?_⟩
    · rw [same.2]
      exact follows.stores
    · rw [same.2]
      exact follows.sender

theorem network_receive (follows : line.Follows key seats talk ledger network) (role : Role) :
    ∃ reply next, network.step (.receive (line.place role)) = (reply, next) ∧
      next.queue = network.queue ∧
      (∀ own, line.Stores key next own (talk.link own).running ((ledger.take role).inbox own)) ∧
      ∀ taken : Option Message, (Reply.ofReceive taken).map Message.reading = reply →
        (taken.map fun message => (message.id, message.data)) =
          (ledger.inbox role).map fun parcel => (.standard role.receiveId,
            Link.payload line.cipher key parcel.encrypted parcel.command) := by
  obtain ⟨member, node, settings, slot⟩ := follows.stores role
  cases arrived : member.slot with
  | none =>
      rw [arrived, Option.map_none, eq_comm, Option.map_eq_none_iff] at slot
      have same : (ledger.take role).inbox = ledger.inbox := by
        rw [Ledger.take, ← slot]
        exact Function.update_eq_self ..
      refine ⟨.wouldBlock, network, ?_, rfl, ?_, ?_⟩
      · rw [Network.step, Network.receive, node]
        dsimp only
        rw [arrived]
      · rw [same]
        exact follows.stores
      · intro taken shown
        cases taken with
        | none => rw [slot]; rfl
        | some message => cases shown
  | some arrival =>
      rw [arrived, Option.map_some, eq_comm, Option.map_eq_some_iff] at slot
      obtain ⟨parcel, held, frame⟩ := slot
      have bound : line.place role < network.nodes.length := by
        by_contra beyond
        rw [Network.node, List.getD_eq_getElem?_getD,
          List.getElem?_eq_none (Nat.not_lt.mp beyond)] at node
        cases node
      refine ⟨.message (member.reading arrival),
        network.put (line.place role) (.running { member with slot := none }), ?_, rfl, ?_, ?_⟩
      · rw [Network.step, Network.receive, node]
        dsimp only
        rw [arrived]
      · intro own
        rw [Stores, Network.node_put bound]
        by_cases same : line.place role = line.place own
        · have mine := follows.place_inj same
          subst mine
          refine ⟨{ member with slot := none }, if_pos rfl, settings, ?_⟩
          simp [Ledger.inbox_take]
        · have other : own ≠ role := by
            rintro rfl
            exact same rfl
          rw [if_neg same, Ledger.inbox_take, if_neg other]
          exact follows.stores own
      · intro taken shown
        cases taken with
        | none => cases shown
        | some message =>
            have read : message.reading = member.reading arrival := Reply.message.inj shown
            obtain ⟨earlier, built⟩ := follows.built role
            obtain ⟨id, data⟩ := reading_frame (settings.trans built) frame.symm
            rw [follows.sender role parcel held, Role.transmitId_other, ← read] at id
            rw [← read] at data
            rw [held, Option.map_some, Option.map_some, ← id, ← data]
            rfl

theorem receive (follows : line.Follows key seats talk ledger network) (role : Role) :
    (line.receive talk role).1 = .ok ((ledger.inbox role).map fun parcel =>
        Link.reported line.cipher key (ledger.encryption role)
          (Link.payload line.cipher key parcel.encrypted parcel.command)) ∧
      ∃ next, line.Follows key seats (line.receive talk role).2 (ledger.take role) next := by
  obtain ⟨reply, next, stepped, queue, stores, found⟩ := follows.network_receive role
  have agree := follows.represents.agree_receive (line.place role)
  simp only [System.step, System.call, follows.seat, System.perform] at agree
  rw [stepped] at agree
  -- Nothing but a frame of the other end can be taken, so the identifier is the expected one.
  have seen := found _ agree.reply
  obtain ⟨engine, ran, kept⟩ := Link.run_receive line.cipher (Wire.access (line.place role)) talk.wire
    (follows.holds role) (by
      intro message taken
      rw [taken, Option.map_some, eq_comm, Option.map_eq_some_iff] at seen
      obtain ⟨parcel, -, shown⟩ := seen
      rw [follows.role]
      exact (congrArg Prod.fst shown).symm)
  have told := congrArg (Option.map fun shown : Identifier × List UInt8 =>
    Link.reported line.cipher key (ledger.encryption role) shown.2) seen
  rw [Option.map_map, Option.map_map] at told
  rw [follows.encryption] at ran
  rw [Line.receive, Line.operate, ran]
  refine ⟨congrArg Except.ok told, next, ?_⟩
  refine follows.operated agree.represents kept rfl (queue.trans follows.queue) stores ?_
  intro own parcel held
  rw [Ledger.inbox_take] at held
  split at held
  next => cases held
  next => exact follows.sender own parcel held

theorem network_deliver (follows : line.Follows key seats talk ledger network) {parcel : Parcel}
    {rest : List Parcel} (waiting : ledger.waiting = parcel :: rest) :
    ∃ next, network.step .deliverNext = (.delivered true, next) ∧
      next.queue = rest.map (line.frame key) ∧
      ∀ own, line.Stores key next own (talk.link own).running
        ((ledger.deliver talk.alone).inbox own) := by
  have queue := follows.queue
  rw [waiting, List.map_cons] at queue
  refine ⟨_, by rw [Network.step, Network.deliverNext, queue], rfl, ?_⟩
  intro own
  obtain ⟨member, node, settings, slot⟩ := follows.stores own
  obtain ⟨earlier, built⟩ := follows.built own
  have heard := line.slot_hear_frame key parcel (settings.trans built)
  have sender : (line.frame key parcel).sender = line.place parcel.sender := rfl
  rw [Stores, Network.node, Network.getD_mapIdx_hear, node, sender, follows.loopback,
    Ledger.inbox_deliver waiting]
  by_cases same : own = parcel.sender
  · subst same
    refine ⟨member.hear (line.frame key parcel), by simp [Node.hear], ?_, ?_⟩
    · rw [Member.settings_hear, settings]
    · rw [heard, if_pos rfl, slot]
      simp
  · have apart : line.place own ≠ line.place parcel.sender := fun equal =>
      same (follows.place_inj equal)
    cases talk.alone parcel.sender with
    | true => exact ⟨member, by simp [apart], settings, by simp [slot]⟩
    | false =>
        refine ⟨member.hear (line.frame key parcel), by simp [Node.hear], ?_, ?_⟩
        · rw [Member.settings_hear, settings]
        · rw [heard, if_neg same]
          simp [same]

theorem deliver (follows : line.Follows key seats talk ledger network) :
    talk.wire.deliverNext.1 = .ok (!ledger.waiting.isEmpty) ∧
      ∃ next, line.Follows key seats { talk with wire := talk.wire.deliverNext.2 }
        (ledger.deliver talk.alone) next := by
  have agree := follows.represents.agree_deliverNext
  simp only [System.step] at agree
  cases waiting : ledger.waiting with
  | nil =>
      have idle : network.step .deliverNext = (.delivered false, network) := by
        rw [Network.step, Network.deliverNext, follows.queue, waiting]
        rfl
      rw [idle] at agree
      have same : (ledger.deliver talk.alone) = ledger := by
        rw [Ledger.deliver, waiting]
      rw [same]
      exact ⟨Reply.ofDelivery_inj agree.reply, network, agree.represents, follows.seat, follows.role,
        follows.built, follows.holds, follows.encryption, follows.queue, follows.stores,
        follows.sender⟩
  | cons parcel rest =>
      obtain ⟨next, stepped, queue, stores⟩ := follows.network_deliver waiting
      rw [stepped] at agree
      have same : (ledger.deliver talk.alone).encryption = ledger.encryption ∧
          (ledger.deliver talk.alone).waiting = rest := by
        rw [Ledger.deliver, waiting]
        exact ⟨rfl, rfl⟩
      refine ⟨Reply.ofDelivery_inj agree.reply, next, agree.represents, follows.seat, follows.role,
        follows.built, follows.holds, ?_, ?_, stores, ?_⟩
      · rw [same.1]
        exact follows.encryption
      · rw [same.2, queue]
      · intro own held
        rw [Ledger.inbox_deliver waiting]
        split
        next reached =>
          intro arrived
          rw [← Option.some.inj arrived]
          exact Role.eq_other_of_ne reached.2.symm
        next => exact follows.sender own held

theorem change (follows : line.Follows key seats talk ledger network) (role : Role) (on : Bool) :
    line.Follows key seats (talk.change role ((talk.link role).setEncryption on))
      (ledger.change role on) network := by
  have kept : ∀ own, ((talk.change role ((talk.link role).setEncryption on)).link own).running =
      (talk.link own).running ∧
      ((talk.change role ((talk.link role).setEncryption on)).link own).role = (talk.link own).role ∧
      ((talk.change role ((talk.link role).setEncryption on)).link own).key = (talk.link own).key := by
    intro own
    by_cases same : own = role
    · subst same
      simp [Talk.change, Link.setEncryption]
    · simp [Talk.change, same]
  refine ⟨follows.represents, ?_, ?_, ?_, ?_, ?_, follows.queue, ?_, follows.sender⟩
  · intro own
    rw [(kept own).1]
    exact follows.seat own
  · intro own
    rw [(kept own).2.1, follows.role]
  · intro own
    rw [(kept own).1]
    exact follows.built own
  · intro own
    rw [(kept own).2.2]
    exact follows.holds own
  · intro own
    by_cases same : own = role
    · subst same
      simp [Talk.change, Link.setEncryption, Ledger.change]
    · simp [Talk.change, Ledger.change, same, follows.encryption]
  · intro own
    rw [(kept own).1]
    exact follows.stores own

/-! One move after the other. -/

theorem move (follows : line.Follows key seats talk ledger network) (move : Move) :
    ∃ next, line.Follows key seats (line.move talk move) (ledger.move talk.alone move) next := by
  cases move with
  | deliverNext => exact follows.deliver.2
  | send role command => exact (follows.send role command).2
  | receive role => exact (follows.receive role).2
  | setEncryption role on => exact ⟨network, follows.change role on⟩
  | toggleEncryption role =>
      have toggled := follows.change role !(talk.link role).encryption
      rw [follows.encryption] at toggled
      refine ⟨network, ?_⟩
      rw [Line.move, Link.toggleEncryption, follows.encryption]
      exact toggled

theorem alone_move (line : Line) (talk : Talk) (move : Move) :
    (line.move talk move).alone = talk.alone := by
  have changed (role : Role) (on : Bool) :
      (talk.change role ((talk.link role).setEncryption on)).alone = talk.alone := by
    funext own
    by_cases same : own = role
    · subst same
      simp [Talk.alone, Talk.change, Link.setEncryption]
    · simp [Talk.alone, Talk.change, same]
  cases move with
  | deliverNext => rfl
  | send role command => rfl
  | receive role => rfl
  | setEncryption role on => exact changed role on
  | toggleEncryption role => exact changed role _

theorem after (follows : line.Follows key seats talk ledger network) (moves : List Move) :
    ∃ next, line.Follows key seats (line.after talk moves) (ledger.after talk.alone moves) next := by
  induction moves generalizing talk ledger network with
  | nil => exact ⟨network, follows⟩
  | cons first rest ih =>
      obtain ⟨next, moved⟩ := follows.move first
      have last := ih moved
      rw [alone_move] at last
      exact last

end Line.Follows

/-- Two ends that are ready to talk: set up for their roles on a wire on which nobody has sent yet, each
with an engine that answers and holds the key. -/
structure Line.Opens (line : Line) (key : Block) (before : List Action) (talk : Talk) : Prop where
  wire : talk.wire = (System.empty.after before).wire
  silent : ∀ action ∈ before, action.Silent
  seat : ∀ role, (System.empty.after before).seat (line.place role) =
    .running (talk.link role).running
  role : ∀ role, (talk.link role).role = role
  built : ∀ role, ∃ earlier, (talk.link role).running.settings = settings role earlier
  holds : ∀ role, (talk.engine role).Holds (talk.link role).key key

def Talk.ledger (talk : Talk) : Ledger where
  encryption role := (talk.link role).encryption
  waiting := []
  inbox _ := none

theorem Line.Opens.follows {line : Line} {key : Block} {before : List Action} {talk : Talk}
    (opens : line.Opens key before talk) :
    ∃ seats network, line.Follows key seats talk talk.ledger network := by
  have represents := System.represents_silent opens.silent
  rw [← opens.wire] at represents
  refine ⟨_, _, represents, ?_, opens.role, opens.built, opens.holds, fun _ => rfl, rfl, ?_, ?_⟩
  · intro role
    rw [System.seat_serving, opens.seat]
    rfl
  · intro role
    refine ⟨{ settings := (talk.link role).running.settings, slot := none, time := 0 }, ?_, rfl, rfl⟩
    rw [System.node_idleNode, opens.seat]
    rfl
  · intro role parcel held
    cases held

theorem Line.Opens.encryption {line : Line} {key : Block} {before : List Action} {talk : Talk}
    (opens : line.Opens key before talk) (moves : List Move) (role : Role) :
    ((line.after talk moves).link role).encryption =
      (talk.ledger.after talk.alone moves).encryption role := by
  obtain ⟨seats, network, follows⟩ := opens.follows
  obtain ⟨next, last⟩ := follows.after moves
  exact last.encryption role

end BufferedCan
