import BufferedCan.Proofs.Network.Reconfiguration
import BufferedCan.Proofs.Network.Refinement
import Mathlib.Data.List.Induction
import Mathlib.Data.List.Nodup

/-! Who owns the buffers of a controller that was set up once. The transmit buffer belongs to the hardware
while a frame of the node waits, and nobody rewrites it meanwhile; the receive buffer keeps its identifier
and one of three codes, and its flag says whether it was filled since it was read last. -/

namespace BufferedCan

structure Station.Backs (station : Station) (buffer : Buffer) (transfer : Transfer) : Prop where
  index : transfer.buffer = buffer.index
  control : transfer.control = station.memory.ram buffer.controlWord
  ident : transfer.ident = station.memory.ram buffer.identWord
  words : transfer.words = (List.range buffer.size.payloadWords).map fun number =>
    station.memory.ram (buffer.payloadWord number)

/-- A control word that announces what a node with these settings may send. -/
structure Settings.Permits (settings : Settings) (control : UInt32) : Prop where
  data : MbCs.rtr.isSet control = false
  format : MbCs.edl.isSet control = true → settings.mode.isFd = true
  rate : MbCs.brs.isSet control = true →
    MbCs.edl.isSet control = true ∧ settings.mode.allowsSwitching = true
  length : Length.ofCode (MbCs.edl.isSet control) (MbCs.dlc.get control) ≤
    settings.mode.dataSize.bytes

structure System.Owns (system : System) (node : Nat) (running : Running) (station : Station) :
    Prop where
  single : (system.wire.pending.map Transfer.sender).count node ≤ 1
  waiting : (∃ transfer ∈ system.wire.pending, transfer.sender = node) ↔
    station.codeOf running.transmitBuffer = .txData
  backed : ∀ transfer ∈ system.wire.pending, transfer.sender = node →
    station.Backs running.transmitBuffer transfer
  code : station.codeOf running.receiveBuffer = .rxEmpty ∨
    station.codeOf running.receiveBuffer = .rxFull ∨
    station.codeOf running.receiveBuffer = .rxOverrun
  standard : MbCs.ide.isSet (station.memory.ram running.receiveBuffer.controlWord) = false
  ident : station.memory.ram running.receiveBuffer.identWord =
    UInt32.ofNat (running.settings.buffers.receiveId.toNat <<< 18)

namespace System

def receives (system : System) (node : Nat) : Bool :=
  match system.seat node with
  | .running running => system.wire.stores node running.receiveBuffer.index
  | _ => false

/-- A delivery has stored a frame at the node, and no call that receives has succeeded since. -/
def Unread (node : Nat) (actions : List Action) : Prop :=
  ∃ first rest, actions = first ++ .deliverNext :: rest ∧
    (empty.after first).receives node = true ∧
    ∀ middle last, rest = middle ++ .receive node :: last → ∀ message,
      ((empty.after (first ++ .deliverNext :: middle)).step (.receive node)).1 ≠ .message message

def Flagged (system : System) (node : Nat) : Prop :=
  ∃ running station, system.seat node = .running running ∧
    system.wire.stations[node]? = some station ∧
    flagSet running.receiveBuffer.index (station.memory.get .iflag1) = true

end System

/-! The parts that one state decides. -/

theorem Settings.permits_of_refusal? {settings : Settings} {draft : Draft} {lengthCode : Nat}
    {control : UInt32} (shown : draft.Shown lengthCode control)
    (admitted : settings.refusal? draft.content
      (Length.ofCode draft.content.isFd lengthCode) = none) : settings.Permits control := by
  obtain ⟨plain, fits⟩ := Settings.plain_of_refusal? admitted
  have format : draft.content.isFd = true → settings.mode.isFd = true := by
    intro fd
    cases mode : settings.mode.isFd with
    | true => rfl
    | false => simp [refusal?, plain, mode, fd] at admitted
  have switches : draft.content.switchesRate = true → draft.content.isFd = true := by
    cases draft.content <;> simp [Content.switchesRate, Content.isFd]
  refine ⟨by rw [shown.rtr, plain], by rw [shown.edl]; exact format, ?_, ?_⟩
  · rw [shown.brs, shown.edl]
    intro faster
    refine ⟨switches faster, ?_⟩
    cases allowed : settings.mode.allowsSwitching with
    | true => rfl
    | false => simp [refusal?, plain, format (switches faster), switches faster, allowed, faster]
        at admitted
  · rw [shown.edl, shown.dlc]
    exact fits

namespace BufferCode

theorem receives_iff (code : BufferCode) :
    code.receives = true ↔ code = .rxEmpty ∨ code = .rxFull ∨ code = .rxOverrun := by
  simp [receives]

end BufferCode

namespace Station

variable {station : Station} {running : Running} {member : Member} {busy : Bool}

theorem backs_outgoing {buffer : Buffer} (agreed : station.layout = buffer.size) (node : Nat) :
    station.Backs buffer (station.outgoing node buffer.index) := by
  refine ⟨rfl, ?_, ?_, ?_⟩
  · rw [outgoing, control_eq, agreed]
    rfl
  · rw [outgoing, ident_eq, agreed]
    rfl
  · rw [outgoing, payloadWords_eq, agreed]
    apply List.map_congr_left
    intro number _
    rw [payloadWord, agreed]
    rfl

theorem Hosts.transmitLayout (hosts : station.Hosts running member busy) :
    station.layout = running.transmitBuffer.size := by
  rw [hosts.serves.layout, hosts.sound.buffers.transmitSize]

theorem Hosts.receiveLayout (hosts : station.Hosts running member busy) :
    station.layout = running.receiveBuffer.size := by
  rw [hosts.serves.layout, hosts.sound.buffers.receiveSize]

theorem Hosts.busy_iff (hosts : station.Hosts running member busy) :
    busy = true ↔ station.codeOf running.transmitBuffer = .txData := by
  rw [codeOf_eq hosts.transmitLayout]
  constructor
  · exact hosts.waiting
  · intro code
    cases resting : busy with
    | true => rfl
    | false =>
        have inactive := hosts.idle resting
        rw [code] at inactive
        cases inactive

theorem Hosts.settled (hosts : station.Hosts running member busy) :
    (station.code running.receiveBuffer.index).isBusy = false := by
  rcases (BufferCode.receives_iff _).mp hosts.listens.receives with code | code | code <;>
    rw [code] <;> rfl

theorem Hosts.offers (hosts : station.Hosts running member busy) (active : station.Active running) :
    station.Offers running
      (match member.slot with
        | none => .nothing
        | some arrival => .frame arrival.overrun) := by
  have settled := hosts.settled
  have slot := hosts.slot
  cases arrived : member.slot with
  | none =>
      rw [arrived] at slot
      exact ⟨active, slot.flag, settled, fun absent => absurd rfl absent⟩
  | some arrival =>
      rw [arrived] at slot
      refine ⟨active, slot.flag, settled, fun _ => ?_⟩
      cases slot with
      | full _ holds =>
          rw [holds.code]
          cases overrun : arrival.overrun <;> simp [overrun]

end Station

namespace System

variable {system : System} {network : Network} {node : Nat} {running : Running}

theorem Represents.hosted (represents : system.Represents network)
    (seat : system.seat node = .running running) :
    ∃ station member, system.wire.stations[node]? = some station ∧
      network.node node = .running member ∧ station.Hosts running member (network.busy node) := by
  rcases represents.cases_at node with ⟨gone, _⟩ | ⟨_, frozen, _, parked, _⟩ |
    ⟨station, other, member, present, seated, playing, hosts⟩
  · rw [seat] at gone
    cases gone
  · rw [seat] at parked
    cases parked
  · rw [seat, Seat.running.injEq] at seated
    subst seated
    exact ⟨station, member, present, playing, hosts⟩

theorem Represents.busy_iff (represents : system.Represents network) :
    (∃ transfer ∈ system.wire.pending, transfer.sender = node) ↔ network.busy node = true := by
  have sender : (∃ transfer ∈ system.wire.pending, transfer.sender = node) ↔
      node ∈ system.wire.pending.map Transfer.sender := by simp
  rw [sender, represents.senders]
  simp [Network.busy]

theorem Represents.single (represents : system.Represents network) (node : Nat) :
    (system.wire.pending.map Transfer.sender).count node ≤ 1 := by
  have distinct := represents.distinct
  rw [← represents.senders] at distinct
  exact List.nodup_iff_count_le_one.mp distinct node

theorem Represents.owns (represents : system.Represents network) {station : Station}
    (seat : system.seat node = .running running)
    (present : system.wire.stations[node]? = some station) :
    system.Owns node running station := by
  obtain ⟨hosted, member, hostedAt, -, hosts⟩ := represents.hosted seat
  rw [present, Option.some.injEq] at hostedAt
  subst hostedAt
  have listens := hosts.listens
  have received := hosts.receiveLayout
  refine ⟨represents.single node, represents.busy_iff.trans hosts.busy_iff, ?_, ?_, ?_, ?_⟩
  · intro transfer member sender
    obtain ⟨frame, -, queued⟩ := exists_of_mem represents.queue member
    obtain ⟨sending, place, seated, placeAt, outgoing, -⟩ := queued.origin
    rw [← queued.sender, sender] at seated placeAt outgoing
    rw [seat, Seat.running.injEq] at seated
    rw [present, Option.some.injEq] at placeAt
    subst seated placeAt
    rw [outgoing]
    exact Station.backs_outgoing hosts.transmitLayout node
  · rw [Station.codeOf_eq received]
    exact (BufferCode.receives_iff _).mp listens.receives
  · have standard := listens.standard
    rw [Station.control_eq, received] at standard
    exact standard
  · have ident := listens.ident
    rw [Station.ident_eq, received] at ident
    exact ident.trans (Identifier.toWord_standard _)

theorem Represents.permits (represents : system.Represents network) :
    ∀ transfer ∈ system.wire.pending, ∃ running,
      system.seat transfer.sender = .running running ∧
        running.settings.Permits transfer.control := by
  intro transfer member
  obtain ⟨frame, -, queued⟩ := exists_of_mem represents.queue member
  obtain ⟨running, -, seated, -, -, admitted⟩ := queued.origin
  rw [← queued.sender] at seated
  exact ⟨running, seated, Settings.permits_of_refusal? queued.carries.shown admitted⟩

theorem Represents.quiet (represents : system.Represents network)
    (seat : system.seat node = .running running) :
    system.Quiet node running.receiveBuffer.index := by
  intro transfer member sender
  obtain ⟨frame, -, queued⟩ := exists_of_mem represents.queue member
  obtain ⟨sending, station, seated, present, outgoing, -⟩ := queued.origin
  obtain ⟨hosted, _, _, -, hosts⟩ := represents.hosted seat
  rw [← queued.sender, sender, seat, Seat.running.injEq] at seated
  subst seated
  rw [outgoing]
  exact hosts.sound.buffers.apart

end System

/-! What one action does to the flag of a node: it is raised by a delivery that stores a frame, and cleared
by a call that receives. -/

namespace Network

variable {network : Network} {action : Action} {node number : Nat} {member : Member}

theorem node_put_cases (network : Network) (number : Nat) (content : Node) (other : Nat) :
    (network.put number content).node other = network.node other ∨
      (network.put number content).node other = content := by
  by_cases bound : number < network.nodes.length
  · rw [node_put bound]
    split
    · exact .inr rfl
    · exact .inl rfl
  · left
    rw [put, List.set_eq_of_length_le (Nat.le_of_not_lt bound)]

theorem node_transmit (network : Network) (number : Nat) (draft : Draft) (other : Nat) :
    (network.transmit number draft).2.node other = network.node other := by
  unfold transmit
  split
  next =>
    split
    next => rfl
    next lengthCode _ =>
      dsimp only
      split
      next => rfl
      next => split <;> rfl
  next => rfl

theorem slot_of_started (before : ∀ old, network.node node ≠ .running old)
    (after : (network.step action).2.node node = .running member) : member.slot = none := by
  -- Whatever a node is replaced by is no member, or one with an empty slot.
  have replaced {number : Nat} {content : Node}
      (fresh : ∀ later, content = .running later → later.slot = none)
      (after : (network.put number content).node node = .running member) : member.slot = none := by
    rcases network.node_put_cases number content node with same | same
    · exact absurd (same.symm.trans after) (before member)
    · exact fresh member (same.symm.trans after)
  have kept (after : network.node node = .running member) : member.slot = none :=
    absurd after (before member)
  cases action with
  | attach station clock bitRate =>
      simp only [step, Network.node, List.getD_eq_getElem?_getD] at after
      by_cases old : node < network.nodes.length
      · rw [List.getElem?_append_left old] at after
        rw [← List.getD_eq_getElem?_getD] at after
        exact kept after
      · rw [List.getElem?_append_right (Nat.le_of_not_lt old)] at after
        cases place : node - network.nodes.length <;> simp [place] at after
  | adjust own settings =>
      simp only [step] at after
      split at after
      · exact replaced (by simp) after
      · exact kept after
  | finalize own =>
      simp only [step] at after
      split at after
      next frozen _ =>
        simp only [finalize] at after
        split at after
        · exact replaced (by simp) after
        · exact replaced (by simp) after
        · split at after
          · exact replaced (by simp) after
          · exact replaced (by rintro later ⟨⟩; rfl) after
      next => exact kept after
  | transmit own draft => exact kept ((network.node_transmit own draft node).symm.trans after)
  | send own id payload =>
      exact kept ((network.node_transmit own (network.format own id payload) node).symm.trans after)
  | receive own =>
      simp only [step, receive] at after
      split at after
      · split at after
        · exact kept after
        · exact replaced (by rintro later ⟨⟩; rfl) after
      · exact kept after
  | status own =>
      simp only [step] at after
      split at after <;> exact kept after
  | timeStamp own =>
      simp only [step] at after
      split at after <;> exact kept after
  | deliverNext =>
      simp only [step, deliverNext] at after
      split at after
      · exact kept after
      · next frame rest queue =>
          rw [Network.node, getD_mapIdx_hear] at after
          split at after
          · exact kept after
          · cases old : network.node node with
            | running first => exact absurd old (before first)
            | gone => rw [old] at after; cases after
            | frozen frozen => rw [old] at after; cases after
  | configure own => exact kept after
  | stall own => exact kept after

end Network

theorem Action.Ordinary.calm {action : Action} (ordinary : action.Ordinary) : action.Calm := by
  cases action with
  | attach station clock bitRate =>
      have fresh : station = .reset := ordinary
      rw [Action.Calm, fresh, Station.time_reset]
      decide
  | _ => trivial

namespace System

variable {system : System} {network : Network} {node : Nat} {running : Running} {held : Held}
  {action : Action}

theorem Represents.watches (represents : system.Represents network)
    (consistent : system.Consistent) (seat : system.seat node = .running running) :
    ∃ held, system.Watches node running held := by
  obtain ⟨station, member, present, -, hosts⟩ := represents.hosted seat
  have active := consistent.fits node station present
  rw [seat] at active
  exact ⟨_, consistent, represents.calm, seat, station, present, hosts.offers active⟩

theorem Watches.flagged_iff (watches : system.Watches node running held) :
    system.Flagged node ↔ held ≠ .nothing := by
  obtain ⟨station, present, offers⟩ := watches.station
  have flag := offers.flag
  constructor
  · rintro ⟨other, place, seated, placeAt, raised⟩ empty
    rw [watches.seat, Seat.running.injEq] at seated
    rw [present, Option.some.injEq] at placeAt
    subst seated placeAt
    rw [flag, empty] at raised
    cases raised
  · intro something
    refine ⟨running, station, watches.seat, present, ?_⟩
    rw [flag]
    simpa using something

theorem Watches.receives_eq (watches : system.Watches node running held) :
    system.receives node = system.wire.stores node running.receiveBuffer.index := by
  rw [receives, watches.seat]

theorem Watches.message_iff (watches : system.Watches node running held) :
    (∃ message, (system.step (.receive node)).1 = .message message) ↔ held ≠ .nothing := by
  have shows := watches.reply
  cases held with
  | nothing =>
      have blocked : (system.step (.receive node)).1 = .wouldBlock := shows
      simp [blocked]
  | leftover =>
      obtain ⟨message, answered, -⟩ := shows
      simp [answered]
  | frame overrun =>
      obtain ⟨message, answered, -⟩ := shows
      simp [answered]

theorem observe_iff (quiet : system.Quiet node running.receiveBuffer.index)
    (watches : system.Watches node running held) :
    system.observe node running.receiveBuffer.index held action ≠ .nothing ↔
      (action = .deliverNext ∧ system.receives node = true) ∨
        (held ≠ .nothing ∧ action ≠ .receive node) := by
  cases action with
  | receive other =>
      by_cases own : other = node
      · subst own
        simp [observe]
      · simp [observe, own]
  | deliverNext =>
      simp only [observe, quiet.completes, watches.receives_eq, Bool.false_eq_true, if_false]
      split
      next stores =>
        rw [stores]
        cases held <;> simp [Held.stored]
      next silent => simp [silent]
  | _ => simp [observe]

theorem Represents.unflagged (represents : system.Represents network)
    (ordinary : action.Ordinary) (idle : ∀ running, system.seat node ≠ .running running) :
    ¬(system.step action).2.Flagged node := by
  rintro ⟨running, station, seat, present, flag⟩
  have agree := represents.agree_step ordinary
  obtain ⟨hosted, member, hostedAt, playing, hosts⟩ := agree.represents.hosted seat
  rw [present, Option.some.injEq] at hostedAt
  subst hostedAt
  have before : ∀ old, network.node node ≠ .running old := by
    intro old played
    rcases represents.cases_at node with ⟨_, gone⟩ | ⟨_, frozen, _, _, parked, _⟩ |
      ⟨_, other, _, _, seated, _⟩
    · rw [played] at gone
      cases gone
    · rw [played] at parked
      cases parked
    · exact idle other seated
  have slot := hosts.slot
  rw [Network.slot_of_started before playing] at slot
  rw [slot.flag] at flag
  cases flag

theorem Represents.flagged_step (represents : system.Represents network)
    (consistent : system.Consistent) (ordinary : action.Ordinary) (node : Nat) :
    (system.step action).2.Flagged node ↔
      (action = .deliverNext ∧ system.receives node = true) ∨
        (system.Flagged node ∧ ¬(action = .receive node ∧
          ∃ message, (system.step (.receive node)).1 = .message message)) := by
  by_cases serving : ∃ running, system.seat node = .running running
  · obtain ⟨running, seat⟩ := serving
    obtain ⟨held, watches⟩ := represents.watches consistent seat
    have kept : action ≠ .configure node := by
      rintro rfl
      exact ordinary
    have next := watches.step ordinary.calm kept
    rw [next.flagged_iff, observe_iff (represents.quiet seat) watches, watches.message_iff,
      watches.flagged_iff]
    by_cases raised : held = .nothing
    · simp [raised]
    · simp [raised]
  · have idle : ∀ running, system.seat node ≠ .running running := by
      intro running seat
      exact serving ⟨running, seat⟩
    have silent : system.receives node = false := by
      unfold receives
      split
      next running seat => exact absurd seat (idle running)
      next => rfl
    have unflagged : ¬system.Flagged node := by
      rintro ⟨running, _, seat, _⟩
      exact idle running seat
    simp [represents.unflagged ordinary idle, silent, unflagged]

/-! The flag along a run. -/

theorem not_unread_nil (node : Nat) : ¬Unread node [] := by
  rintro ⟨first, rest, split, -⟩
  simp at split

theorem unread_concat (node : Nat) (actions : List Action) (action : Action) :
    Unread node (actions ++ [action]) ↔
      (action = .deliverNext ∧ (empty.after actions).receives node = true) ∨
        (Unread node actions ∧ ¬(action = .receive node ∧
          ∃ message, ((empty.after actions).step (.receive node)).1 = .message message)) := by
  constructor
  · rintro ⟨first, rest, split, stored, since⟩
    rcases List.eq_nil_or_concat rest with rfl | ⟨early, last, rfl⟩
    · obtain ⟨rfl, same⟩ := List.append_inj' split rfl
      simp only [List.cons.injEq, and_true] at same
      exact .inl ⟨same, stored⟩
    · rw [List.concat_eq_append, ← List.cons_append, ← List.append_assoc] at split
      obtain ⟨rfl, same⟩ := List.append_inj' split rfl
      simp only [List.cons.injEq, and_true] at same
      subst same
      refine .inr ⟨⟨first, early, rfl, stored, ?_⟩, ?_⟩
      · intro middle late same
        exact since middle (late ++ [action]) (by simp [same])
      · rintro ⟨rfl, message, answered⟩
        exact since early [] (by simp) message answered
  · rintro (⟨rfl, stored⟩ | ⟨⟨first, rest, rfl, stored, since⟩, quiet⟩)
    · exact ⟨actions, [], rfl, stored, by simp⟩
    · refine ⟨first, rest ++ [action], by simp, stored, ?_⟩
      intro middle late split message answered
      rcases List.eq_nil_or_concat late with rfl | ⟨early, last, rfl⟩
      · obtain ⟨rfl, same⟩ := List.append_inj' split rfl
        simp only [List.cons.injEq, and_true] at same
        exact quiet ⟨same, message, answered⟩
      · rw [List.concat_eq_append, ← List.cons_append, ← List.append_assoc] at split
        obtain ⟨rfl, -⟩ := List.append_inj' split rfl
        exact since middle early rfl message answered

theorem flagged_iff_unread (node : Nat) (actions : List Action)
    (ordinary : ∀ action ∈ actions, action.Ordinary) :
    (empty.after actions).Flagged node ↔ Unread node actions := by
  induction actions using List.reverseRecOn with
  | nil =>
      have nobody : ¬(empty.after []).Flagged node := by
        rintro ⟨running, station, seat, present, -⟩
        cases present
      simp [nobody, not_unread_nil]
  | append_singleton earlier action ih =>
      have before : ∀ action ∈ earlier, action.Ordinary := fun other member =>
        ordinary other (by simp [member])
      have represents := (Represents.empty.agree_run earlier before).2
      have consistent := consistent_empty.run earlier
      rw [after_append, after_singleton, unread_concat, ← ih before,
        represents.flagged_step consistent (ordinary action (by simp))]

/-- Whatever the nodes do, each set up at most once: a transfer that waits is what the transmit buffer of
its sender holds, one for each node whose buffer is marked for sending, and of a kind that the sender may
send; and a receive flag is raised exactly while a stored frame was not read. -/
theorem ownership (actions : List Action) (ordinary : ∀ action ∈ actions, action.Ordinary) :
    let system := empty.after actions
    (∀ transfer ∈ system.wire.pending, ∃ running,
      system.seat transfer.sender = .running running ∧
        running.settings.Permits transfer.control) ∧
    ∀ node running, system.seat node = .running running →
      ∃ station, system.wire.stations[node]? = some station ∧ system.Owns node running station ∧
        (flagSet running.receiveBuffer.index (station.memory.get .iflag1) = true ↔
          Unread node actions) := by
  have represents := (Represents.empty.agree_run actions ordinary).2
  refine ⟨represents.permits, ?_⟩
  intro node running seat
  obtain ⟨station, -, present, -, -⟩ := represents.hosted seat
  refine ⟨station, present, represents.owns seat present, ?_⟩
  rw [← flagged_iff_unread node actions ordinary]
  constructor
  · intro raised
    exact ⟨running, station, seat, present, raised⟩
  · rintro ⟨other, place, seated, placeAt, raised⟩
    rw [seat, Seat.running.injEq] at seated
    rw [present, Option.some.injEq] at placeAt
    subst seated placeAt
    exact raised

def crossing : List Action :=
  [.attach .reset .oscillator 500000, .attach .reset .oscillator 500000, .finalize 0, .finalize 1,
    .send 0 (.standard 0) [7, 8], .deliverNext, .send 0 (.standard 0) [9], .deliverNext,
    .send 1 (.standard 0) [5]]

/-- Its transmit buffer is then the hardware's, and what it has received is unread. -/
theorem crossing_owned :
    (∀ action ∈ crossing, action.Ordinary) ∧
      (empty.after crossing).wire.pending.map Transfer.sender = [1] ∧
      ∃ running station, (empty.after crossing).seat 1 = .running running ∧
        (empty.after crossing).wire.stations[1]? = some station ∧
        station.codeOf running.transmitBuffer = .txData ∧ Unread 1 crossing := by
  have ordinary : ∀ action ∈ crossing, action.Ordinary := by simp [crossing, Action.Ordinary]
  have represents := (Represents.empty.agree_run crossing ordinary).2
  have pending : (empty.after crossing).wire.pending.map Transfer.sender = [1] :=
    represents.senders.trans rfl
  have member : ∃ member, (Network.empty.after crossing).node 1 = .running member ∧
      member.slot.isSome = true := ⟨_, rfl, rfl⟩
  obtain ⟨member, playing, arrived⟩ := member
  rcases represents.cases_at 1 with ⟨-, gone⟩ | ⟨_, _, _, -, parked, -⟩ |
    ⟨station, running, hosted, present, seat, hostedAt, hosts⟩
  · rw [playing] at gone
    cases gone
  · rw [playing] at parked
    cases parked
  · rw [playing, Node.running.injEq] at hostedAt
    subst hostedAt
    obtain ⟨place, placeAt, owns, flag⟩ := (ownership crossing ordinary).2 1 running seat
    rw [present, Option.some.injEq] at placeAt
    subst placeAt
    refine ⟨ordinary, pending, running, station, seat, present, ?_, ?_⟩
    · rw [← owns.waiting]
      have sends : 1 ∈ (empty.after crossing).wire.pending.map Transfer.sender := by simp [pending]
      exact List.mem_map.mp sends
    · rw [← flag, hosts.slot.flag, arrived]

end System

end BufferedCan
