import BufferedCan.Proofs.Network.Member
import Mathlib.Data.List.Forall2

/-! The network of controllers does what the abstract network does. The invariant ties every controller
to its node and every waiting transfer to its frame; each action preserves it and is answered alike, and
so are all runs. -/

namespace BufferedCan

namespace Network

theorem node_put {network : Network} {number : Nat} (bound : number < network.nodes.length)
    (node : Node) (other : Nat) :
    (network.put number node).node other = if number = other then node else network.node other := by
  simp only [Network.node, put, List.getD_eq_getElem?_getD]
  by_cases same : number = other
  · subst same
    rw [List.getElem?_set_self bound, Option.getD_some, if_pos rfl]
  · rw [List.getElem?_set_ne same, if_neg same]

theorem any_tail {network : Network} {frame : Frame} {frames : List Frame}
    (queue : network.queue = frame :: frames) (once : frame.sender ∉ frames.map Frame.sender)
    (number : Nat) : (frames.any fun other => other.sender == number) =
      if number = frame.sender then false else network.busy number := by
  split
  next same =>
    rw [List.any_eq_false]
    intro other member sender
    exact once (List.mem_map.mpr ⟨other, member, by rw [beq_iff_eq.mp sender, same]⟩)
  next apart =>
    have unequal : (frame.sender == number) = false := by simpa using Ne.symm apart
    rw [Network.busy, queue, List.any_cons, unequal, Bool.false_or]

theorem getD_mapIdx_hear (network : Network) (frame : Frame) (deaf : Nat → Bool) (number : Nat) :
    (network.nodes.mapIdx fun number node =>
        if deaf number then node else node.hear frame).getD number .gone =
      if deaf number then network.node number else (network.node number).hear frame := by
  simp only [Network.node, List.getD_eq_getElem?_getD, List.getElem?_mapIdx]
  cases network.nodes[number]? with
  | none => simp [Node.hear]
  | some node => rfl

end Network

inductive Station.Plays (station : Station) (busy : Bool) : Seat → Node → Prop
  | gone : Plays station busy .gone .gone
  | frozen {frozen : Frozen} (parked : station.Parked) :
      Plays station busy (.frozen frozen) (.frozen frozen)
  | running {running : Running} {member : Member} (hosts : station.Hosts running member busy) :
      Plays station busy (.running running) (.running member)

/-- A waiting transfer is what the transmit buffer of its sender still holds, and carries the frame. -/
structure System.Queued (system : System) (transfer : Transfer) (frame : Frame) : Prop where
  sender : transfer.sender = frame.sender
  carries : transfer.Carries frame.draft frame.lengthCode
  origin : ∃ running station, system.seat frame.sender = .running running ∧
    system.wire.stations[frame.sender]? = some station ∧
    transfer = station.outgoing frame.sender running.transmitBuffer.index ∧
    running.settings.refusal? frame.draft.content frame.length = none

structure System.Represents (system : System) (network : Network) : Prop where
  seats : system.seats.length = system.wire.stations.length
  nodes : network.nodes.length = system.wire.stations.length
  plays : ∀ (number : Nat) (station : Station), system.wire.stations[number]? = some station →
    station.Plays (network.busy number) (system.seat number) (network.node number)
  calm : system.wire.Calm
  queue : List.Forall₂ system.Queued system.wire.pending network.queue
  distinct : (network.queue.map Frame.sender).Nodup

namespace System.Represents

variable {system after : System} {network next : Network} {number : Nat} {station changed : Station}

theorem exists_of_mem {α β : Type} {related : α → β → Prop} {left : List α} {right : List β}
    (pairs : List.Forall₂ related left right) {value : α} (member : value ∈ left) :
    ∃ other ∈ right, related value other := by
  induction pairs with
  | nil => simp at member
  | cons pair _ ih =>
      rcases List.mem_cons.mp member with rfl | later
      · exact ⟨_, List.mem_cons_self .., pair⟩
      · obtain ⟨other, found, pair⟩ := ih later
        exact ⟨other, List.mem_cons_of_mem _ found, pair⟩

theorem busy_of_pending (represents : system.Represents network) :
    ∀ transfer ∈ system.wire.pending, network.busy transfer.sender = true := by
  intro transfer member
  obtain ⟨frame, found, queued⟩ := exists_of_mem represents.queue member
  simp only [Network.busy, List.any_eq_true, beq_iff_eq]
  exact ⟨frame, found, queued.sender.symm⟩

theorem free_of_frozen (represents : system.Represents network) {frozen : Frozen}
    (seated : system.seat number = .frozen frozen) : network.busy number = false := by
  rw [← Bool.not_eq_true, Network.busy, List.any_eq_true]
  rintro ⟨frame, found, own⟩
  have reversed : List.Forall₂ (flip system.Queued) network.queue system.wire.pending :=
    List.Forall₂.flip represents.queue
  obtain ⟨transfer, _, queued⟩ := exists_of_mem reversed found
  obtain ⟨running, _, running', _⟩ := queued.origin
  rw [beq_iff_eq.mp own, seated] at running'
  cases running'

theorem not_mem_of_free (free : network.busy number = false) :
    number ∉ network.queue.map Frame.sender := by
  intro member
  obtain ⟨frame, found, same⟩ := List.mem_map.mp member
  simp only [Network.busy, List.any_eq_false, beq_iff_eq] at free
  exact free frame found same

theorem update (represents : system.Represents network) {transfers : List Transfer}
    {frames : List Frame} (present : system.wire.stations[number]? = some station)
    (wire : after.wire = system.wire.replace number (changed, system.wire.pending ++ transfers))
    (seats : after.seats.length = system.seats.length)
    (otherSeats : ∀ other, number ≠ other → after.seat other = system.seat other)
    (queue : next.queue = network.queue ++ frames)
    (nodes : next.nodes.length = network.nodes.length)
    (otherNodes : ∀ other, number ≠ other → next.node other = network.node other)
    (plays : changed.Plays (next.busy number) (after.seat number) (next.node number))
    (small : changed.time < 65536)
    (kept : network.busy number = true → ∀ running, system.seat number = .running running →
      after.seat number = .running running ∧
        changed.outgoing number running.transmitBuffer.index =
          station.outgoing number running.transmitBuffer.index)
    (added : List.Forall₂ after.Queued transfers frames)
    (own : ∀ frame ∈ frames, frame.sender = number)
    (distinct : (next.queue.map Frame.sender).Nodup) : after.Represents next := by
  have bound : number < system.wire.stations.length := (List.getElem?_eq_some_iff.1 present).1
  have stations : after.wire.stations.length = system.wire.stations.length := by
    rw [wire]
    simp [Wire.replace]
  have busy (other : Nat) (apart : number ≠ other) : next.busy other = network.busy other := by
    have none : (frames.any fun frame => frame.sender == other) = false := by
      rw [List.any_eq_false]
      intro frame member
      rw [own frame member]
      simpa using apart
    rw [Network.busy, queue, List.any_append, none, Bool.or_false, Network.busy]
  have ownStation : after.wire.stations[number]? = some changed := by
    rw [wire, system.wire.station_replace _ bound]
  have others (other : Nat) (apart : number ≠ other) :
      after.wire.stations[other]? = system.wire.stations[other]? := by
    rw [wire, system.wire.station_replace_of_ne _ apart]
  refine ⟨?_, ?_, ?_, ?_, ?_, distinct⟩
  · rw [seats, stations, represents.seats]
  · rw [nodes, stations, represents.nodes]
  · intro other found foundAt
    by_cases same : number = other
    · subst same
      rw [ownStation, Option.some.injEq] at foundAt
      rw [← foundAt]
      exact plays
    · rw [others other same] at foundAt
      rw [busy other same, otherSeats other same, otherNodes other same]
      exact represents.plays other found foundAt
  · intro other member
    rw [wire] at member
    rcases List.mem_or_eq_of_mem_set member with old | rfl
    · exact represents.calm other old
    · exact small
  · rw [wire, queue]
    refine List.rel_append ?_ added
    -- A frame that waits already needs its transmit buffer; if it is of this node, the node is busy.
    have waiting := (List.forall₂_and_left _ _).mpr ⟨represents.busy_of_pending, represents.queue⟩
    refine waiting.imp ?_
    rintro transfer frame ⟨sending, queued⟩
    refine ⟨queued.sender, queued.carries, ?_⟩
    obtain ⟨running, sender, seated, stationAt, outgoing, admitted⟩ := queued.origin
    by_cases same : number = frame.sender
    · subst same
      rw [present, Option.some.injEq] at stationAt
      rw [queued.sender] at sending
      obtain ⟨stays, equal⟩ := kept sending running seated
      exact ⟨running, changed, stays, ownStation, by rw [equal, stationAt, outgoing], admitted⟩
    · exact ⟨running, sender, by rw [otherSeats _ same, seated], by rw [others _ same, stationAt],
        outgoing, admitted⟩

theorem change (represents : system.Represents network)
    (present : system.wire.stations[number]? = some station)
    (wire : after.wire = system.wire.replace number (changed, system.wire.pending))
    (seats : after.seats.length = system.seats.length)
    (otherSeats : ∀ other, number ≠ other → after.seat other = system.seat other)
    (queue : next.queue = network.queue) (nodes : next.nodes.length = network.nodes.length)
    (otherNodes : ∀ other, number ≠ other → next.node other = network.node other)
    (plays : changed.Plays (network.busy number) (after.seat number) (next.node number))
    (small : changed.time < 65536)
    (kept : ∀ running, system.seat number = .running running →
      after.seat number = .running running ∧
        changed.outgoing number running.transmitBuffer.index =
          station.outgoing number running.transmitBuffer.index) :
    after.Represents next := by
  have busy : next.busy number = network.busy number := by
    rw [Network.busy, Network.busy, queue]
  refine represents.update present (by rw [wire, List.append_nil]) seats otherSeats
    (by rw [queue, List.append_nil]) nodes otherNodes (by rw [busy]; exact plays) small
    (fun _ => kept) .nil (by simp) ?_
  rw [queue]
  exact represents.distinct

theorem cases_at (represents : system.Represents network) (number : Nat) :
    (system.seat number = .gone ∧ network.node number = .gone) ∨
    (∃ station frozen, system.wire.stations[number]? = some station ∧
      system.seat number = .frozen frozen ∧ network.node number = .frozen frozen ∧
        station.Parked) ∨
    ∃ station running member, system.wire.stations[number]? = some station ∧
      system.seat number = .running running ∧ network.node number = .running member ∧
        station.Hosts running member (network.busy number) := by
  cases present : system.wire.stations[number]? with
  | none =>
      have beyond := List.getElem?_eq_none_iff.mp present
      left
      constructor
      · rw [System.seat, List.getD_eq_getElem?_getD, List.getElem?_eq_none, Option.getD_none]
        rw [represents.seats]
        exact beyond
      · rw [Network.node, List.getD_eq_getElem?_getD, List.getElem?_eq_none, Option.getD_none]
        rw [represents.nodes]
        exact beyond
  | some station =>
      have plays := represents.plays number station present
      generalize system.seat number = seat at plays
      generalize network.node number = node at plays
      cases plays with
      | gone => exact .inl ⟨rfl, rfl⟩
      | frozen parked => exact .inr (.inl ⟨station, _, rfl, rfl, rfl, parked⟩)
      | running hosts => exact .inr (.inr ⟨station, _, _, rfl, rfl, rfl, hosts⟩)

end System.Represents

structure Agree (left : Reply Message × System) (right : Reply Reading × Network) : Prop where
  reply : left.1.map Message.reading = right.1
  represents : left.2.Represents right.2

namespace System.Represents

variable {system : System} {network : Network}

theorem bounds (represents : system.Represents network) {number : Nat} {station : Station}
    (present : system.wire.stations[number]? = some station) :
    number < system.seats.length ∧ number < network.nodes.length := by
  have bound := (List.getElem?_eq_some_iff.1 present).1
  rw [represents.seats, represents.nodes]
  exact ⟨bound, bound⟩

theorem time_lt (represents : system.Represents network) {number : Nat} {station : Station}
    (present : system.wire.stations[number]? = some station) : station.time < 65536 :=
  represents.calm station (List.mem_of_getElem? present)

theorem put (represents : system.Represents network) {number : Nat} {station changed : Station}
    {frozen : Frozen} (present : system.wire.stations[number]? = some station)
    (seated : system.seat number = .frozen frozen) (small : changed.time < 65536) {seat : Seat}
    {node : Node} (plays : changed.Plays (network.busy number) seat node) :
    (System.hold ⟨system.wire.replace number (changed, system.wire.pending), system.seats⟩ number
      seat).Represents (network.put number node) := by
  obtain ⟨seatBound, nodeBound⟩ := represents.bounds present
  have held (other : Nat) := System.seat_hold
    (show number < (System.mk (system.wire.replace number (changed, system.wire.pending))
      system.seats).seats.length from seatBound) seat other
  refine represents.change present rfl (by simp [System.hold]) (fun other apart => ?_) rfl
    (by simp [Network.put]) (fun other apart => ?_) ?_ small ?_
  · rw [held, if_neg apart]
    rfl
  · rw [Network.node_put nodeBound, if_neg apart]
  · rw [held, Network.node_put nodeBound, if_pos rfl, if_pos rfl]
    exact plays
  · intro running other
    rw [seated] at other
    cases other

theorem agree_adjust (represents : system.Represents network) (number : Nat)
    (settings : Settings) :
    Agree (system.step (.adjust number settings)) (network.step (.adjust number settings)) := by
  rcases represents.cases_at number with ⟨seat, node⟩ |
    ⟨station, frozen, present, seat, node, parked⟩ |
    ⟨station, running, member, present, seat, node, hosts⟩
  · simp only [System.step, Network.step, seat, node]
    exact ⟨rfl, represents⟩
  · simp only [System.step, Network.step, seat, node]
    have changed := represents.put present seat (represents.time_lt present)
      (.frozen parked : station.Plays _ (.frozen { frozen with settings := settings }) _)
    rw [Wire.replace_self present] at changed
    exact ⟨rfl, changed⟩
  · simp only [System.step, Network.step, seat, node]
    exact ⟨rfl, represents⟩

theorem agree_finalize (represents : system.Represents network) (number : Nat) :
    Agree (system.step (.finalize number)) (network.step (.finalize number)) := by
  rcases represents.cases_at number with ⟨seat, node⟩ |
    ⟨station, frozen, present, seat, node, parked⟩ |
    ⟨station, running, member, present, seat, node, hosts⟩
  · simp only [System.step, Network.step, seat, node]
    exact ⟨rfl, represents⟩
  · simp only [System.step, Network.step, seat, node, System.finalize, Network.finalize,
      System.perform_eq present]
    have calm := represents.time_lt present
    cases found : frozen.settings.plan frozen.clock with
    | error problem =>
        simp only [Frozen.start, found, Program.run_done]
        exact ⟨rfl, represents.put present seat calm .gone⟩
    | ok outcome =>
        cases outcome with
        | error error =>
            simp only [Frozen.start, found, Program.run_done]
            exact ⟨rfl, represents.put present seat calm .gone⟩
        | ok plan =>
            obtain ⟨after, -, time, starting⟩ := parked.start number system.wire.pending found
            have small : after.time < 65536 := by omega
            split at starting
            next impatient =>
              simp only [starting, impatient, if_true]
              exact ⟨rfl, represents.put present seat small .gone⟩
            next patient =>
              obtain ⟨running, started, hosts⟩ := starting
              simp only [started, patient, if_false]
              refine ⟨rfl, represents.put present seat small (.running ?_)⟩
              rw [represents.free_of_frozen seat]
              exact hosts
  · simp only [System.step, Network.step, seat, node]
    exact ⟨rfl, represents⟩

theorem unchanged (represents : system.Represents network) {number : Nat} {station : Station}
    (present : system.wire.stations[number]? = some station) :
    System.Represents ⟨system.wire.replace number (station, system.wire.pending), system.seats⟩
      network := by
  rw [Wire.replace_self present]
  exact represents

theorem enqueue (represents : system.Represents network) {number : Nat}
    {station changed : Station} {running : Running} {member : Member} {draft : Draft}
    {lengthCode : Nat} (present : system.wire.stations[number]? = some station)
    (seat : system.seat number = .running running)
    (node : network.node number = .running member)
    (hosts : station.Hosts running member (network.busy number))
    (free : network.busy number = false)
    (stored : running.transmitBuffer.Stored (draft.message lengthCode) .txData
      (station.setRegister .iflag1
        (station.memory.get .iflag1 &&& ~~~flagWord running.transmitBuffer.index)) changed)
    (coded : Length.code? draft.content.isFd draft.content.length = some lengthCode)
    (admitted : running.settings.refusal? draft.content
      (Length.ofCode draft.content.isFd lengthCode) = none) :
    System.Represents
      ⟨system.wire.replace number (changed, system.wire.pending ++
        [changed.outgoing number running.transmitBuffer.index]), system.seats⟩
      { network with queue := network.queue ++ [⟨number, draft, lengthCode⟩] } := by
  have bound := (List.getElem?_eq_some_iff.1 present).1
  have next := hosts.store stored
  have agreed : changed.layout = running.transmitBuffer.size := by
    rw [next.serves.layout, next.sound.buffers.transmitSize]
  obtain ⟨plain, fits⟩ := Settings.plain_of_refusal? admitted
  rw [← hosts.sound.buffers.transmitSize] at fits
  have sending : Network.busy
      { network with queue := network.queue ++ [⟨number, draft, lengthCode⟩] } number = true := by
    simp [Network.busy]
  have small : changed.time < 65536 := by rw [next.time]; exact next.small
  refine represents.update present rfl rfl (fun _ _ => rfl) rfl rfl (fun _ _ => rfl) ?_ small ?_
    (.cons ⟨rfl, ?_, running, changed, seat, ?_, rfl, admitted⟩ .nil) (by simp) ?_
  · rw [sending]
    have plays : changed.Plays true (.running running) (.running member) := .running next
    rw [← seat, ← node] at plays
    exact plays
  · intro busy
    rw [free] at busy
    cases busy
  · exact stored.carries agreed coded plain fits number
  · exact system.wire.station_replace _ bound
  · rw [List.map_append, List.nodup_append]
    refine ⟨represents.distinct, by simp, ?_⟩
    intro sender member other own same
    simp only [List.map_cons, List.map_nil, List.mem_singleton] at own
    rw [own] at same
    exact not_mem_of_free free (same ▸ member)

theorem agree_transmit (represents : system.Represents network) (number : Nat) (draft : Draft) :
    Agree (system.call number .ofTransmit fun running => running.transmitDraft draft)
      (network.transmit number draft) := by
  rcases represents.cases_at number with ⟨seat, node⟩ |
    ⟨station, frozen, present, seat, node, parked⟩ |
    ⟨station, running, member, present, seat, node, hosts⟩
  · simp only [System.call, Network.transmit, seat, node]
    exact ⟨rfl, represents⟩
  · simp only [System.call, Network.transmit, seat, node]
    exact ⟨rfl, represents⟩
  · simp only [System.call, Network.transmit, seat, node, System.perform_eq present]
    have same := represents.unchanged present
    have agreed : station.layout = running.transmitBuffer.size := by
      rw [hosts.serves.layout, hosts.sound.buffers.transmitSize]
    cases coded : Length.code? draft.content.isFd draft.content.length with
    | none =>
        simp only [Running.transmitDraft, Draft.encode?_eq, coded, Option.map_none, Program.run_done]
        exact ⟨rfl, same⟩
    | some lengthCode =>
        have objection := Running.objection?_eq hosts.sound draft (Length.code?_lt coded)
        simp only [Running.transmitDraft, Draft.encode?_eq, coded, Option.map_some, Frame.length,
          hosts.settings]
        cases refused : running.settings.refusal? draft.content
            (Length.ofCode draft.content.isFd lengthCode) with
        | some error =>
            rw [refused] at objection
            simp only [Running.run_transmit_of_objection number station _ objection]
            exact ⟨rfl, same⟩
        | none =>
            rw [refused] at objection
            cases busy : network.busy number with
            | true =>
                have waiting : (station.codeOf running.transmitBuffer).isInactive = false := by
                  rw [Station.codeOf_eq agreed, hosts.waiting busy]
                  rfl
                simp only [Running.run_transmit_of_busy number _ objection waiting, if_true]
                exact ⟨rfl, same⟩
            | false =>
                have idle : (station.codeOf running.transmitBuffer).isInactive = true := by
                  rw [Station.codeOf_eq agreed, hosts.idle busy]
                obtain ⟨after, stored, storing⟩ := Running.run_transmit_of_free number
                  system.wire.pending agreed objection idle
                simp only [storing]
                exact ⟨rfl, represents.enqueue present seat node hosts busy stored coded refused⟩

theorem agree_send (represents : system.Represents network) (number : Nat) (id : Identifier)
    (payload : List UInt8) :
    Agree (system.step (.send number id payload)) (network.step (.send number id payload)) := by
  have agree := represents.agree_transmit number (network.format number id payload)
  rcases represents.cases_at number with ⟨seat, node⟩ |
    ⟨station, frozen, present, seat, node, parked⟩ |
    ⟨station, running, member, present, seat, node, hosts⟩
  · simp only [System.step, Network.step, System.call, seat] at agree ⊢
    exact agree
  · simp only [System.step, Network.step, System.call, seat] at agree ⊢
    exact agree
  · have same : running.draft id payload = network.format number id payload := by
      simp only [Running.draft, Network.format, node, hosts.settings]
      cases running.settings.mode <;> rfl
    simp only [System.step, Network.step, System.call, seat, Running.transmitPayload, same]
      at agree ⊢
    exact agree

theorem agree_receive (represents : system.Represents network) (number : Nat) :
    Agree (system.step (.receive number)) (network.step (.receive number)) := by
  rcases represents.cases_at number with ⟨seat, node⟩ |
    ⟨station, frozen, present, seat, node, parked⟩ |
    ⟨station, running, member, present, seat, node, hosts⟩
  · simp only [System.step, Network.step, System.call, Network.receive, seat, node]
    exact ⟨rfl, represents⟩
  · simp only [System.step, Network.step, System.call, Network.receive, seat, node]
    exact ⟨rfl, represents⟩
  · simp only [System.step, Network.step, System.call, Network.receive, seat, node,
      System.perform_eq present, Running.run_receive]
    have slot := hosts.slot
    cases arrived : member.slot with
    | none =>
        rw [arrived] at slot
        cases slot with
        | empty flag =>
            simp only [flag, Bool.false_eq_true, false_and, if_false]
            exact ⟨rfl, represents.unchanged present⟩
    | some arrival =>
        rw [arrived] at slot
        cases slot with
        | full flag holds =>
            have ready := Station.not_busy_of_holds hosts.sound hosts.serves holds
            simp only [flag, hosts.sound.patient, ready, and_self, if_true]
            have next := hosts.read
            obtain ⟨-, nodeBound⟩ := represents.bounds present
            refine ⟨?_, represents.change present rfl rfl (fun _ _ => rfl) rfl
              (by simp [Network.put]) (fun other apart => ?_) ?_ ?_ ?_⟩
            · simp only [Reply.ofReceive, Reply.map, Member.reading, hosts.settings,
                Station.reading_of_holds hosts.sound hosts.serves holds]
            · rw [Network.node_put nodeBound, if_neg apart]
            · rw [Network.node_put nodeBound, if_pos rfl]
              have plays := Station.Plays.running next
              rw [← seat] at plays
              exact plays
            · rw [next.time]
              exact next.small
            · intro held seated
              rw [seat, Seat.running.injEq] at seated
              subst seated
              exact ⟨seat, hosts.outgoing_of_touches (station.touches_read _ _) number⟩

theorem agree_status (represents : system.Represents network) (number : Nat) :
    Agree (system.step (.status number)) (network.step (.status number)) := by
  rcases represents.cases_at number with ⟨seat, node⟩ |
    ⟨station, frozen, present, seat, node, parked⟩ |
    ⟨station, running, member, present, seat, node, hosts⟩
  · simp only [System.step, Network.step, System.call, seat, node]
    exact ⟨rfl, represents⟩
  · simp only [System.step, Network.step, System.call, seat, node]
    exact ⟨rfl, represents⟩
  · simp only [System.step, Network.step, System.call, seat, node, System.perform_eq present,
      Running.run_statuses, hosts.status, hosts.counters]
    exact ⟨rfl, represents.unchanged present⟩

theorem agree_timeStamp (represents : system.Represents network) (number : Nat) :
    Agree (system.step (.timeStamp number)) (network.step (.timeStamp number)) := by
  rcases represents.cases_at number with ⟨seat, node⟩ |
    ⟨station, frozen, present, seat, node, parked⟩ |
    ⟨station, running, member, present, seat, node, hosts⟩
  · simp only [System.step, Network.step, System.call, seat, node]
    exact ⟨rfl, represents⟩
  · simp only [System.step, Network.step, System.call, seat, node]
    exact ⟨rfl, represents⟩
  · simp only [System.step, Network.step, System.call, seat, node, System.perform_eq present,
      Running.run_timeStamp]
    have time : Timer.timer.get (station.memory.get .timer) = member.time := by
      rw [← hosts.time]
      exact Nat.mod_eq_of_lt (represents.time_lt present)
    have next := hosts.readTimer (station.timerReads + 1)
    refine ⟨by rw [time]; rfl, represents.change present rfl rfl (fun _ _ => rfl) rfl rfl
      (fun _ _ => rfl) ?_ (by rw [next.time]; exact next.small) ?_⟩
    · have plays := Station.Plays.running next
      rw [← seat, ← node] at plays
      exact plays
    · intro held seated
      rw [seat, Seat.running.injEq] at seated
      subst seated
      exact ⟨seat, hosts.outgoing_of_touches (station.touches_timerReads _ _) number⟩

theorem joined (represents : system.Represents network) {station : Station}
    (parked : station.Parked) (frozen : Frozen) :
    System.Represents
      ⟨⟨system.wire.stations ++ [station], system.wire.pending⟩, system.seats ++ [.frozen frozen]⟩
      { network with nodes := network.nodes ++ [.frozen frozen] } := by
  have seats := represents.seats
  have nodes := represents.nodes
  have early (number : Nat) (bound : number < system.wire.stations.length) :
      (System.mk ⟨system.wire.stations ++ [station], system.wire.pending⟩
        (system.seats ++ [.frozen frozen])).seat number = system.seat number := by
    simp only [System.seat, List.getD_eq_getElem?_getD]
    rw [List.getElem?_append_left (by omega)]
  refine ⟨by simp [seats], by simp [nodes], ?_, ?_, ?_, represents.distinct⟩
  · intro number found foundAt
    by_cases old : number < system.wire.stations.length
    · rw [List.getElem?_append_left old] at foundAt
      have node : Network.node { network with nodes := network.nodes ++ [.frozen frozen] } number =
          network.node number := by
        simp only [Network.node, List.getD_eq_getElem?_getD]
        rw [List.getElem?_append_left (by omega)]
      rw [early number old, node]
      exact represents.plays number found foundAt
    · have last : number = system.wire.stations.length := by
        have bound := (List.getElem?_eq_some_iff.1 foundAt).1
        simp only [List.length_append, List.length_cons, List.length_nil] at bound
        omega
      have seat : (system.seats ++ [Seat.frozen frozen]).getD number .gone = .frozen frozen := by
        rw [last, ← seats]
        simp [List.getD_eq_getElem?_getD]
      have node : (network.nodes ++ [Node.frozen frozen]).getD number .gone = .frozen frozen := by
        rw [last, ← nodes]
        simp [List.getD_eq_getElem?_getD]
      rw [last, List.getElem?_concat_length, Option.some.injEq] at foundAt
      rw [System.seat, seat, Network.node, node, ← foundAt]
      exact .frozen parked
  · intro other member
    rcases List.mem_append.mp member with old | new
    · exact represents.calm other old
    · rw [List.mem_singleton.mp new, parked.time]
      decide
  · refine represents.queue.imp fun transfer frame queued => ⟨queued.sender, queued.carries, ?_⟩
    obtain ⟨running, sender, seated, stationAt, outgoing, admitted⟩ := queued.origin
    have bound := (List.getElem?_eq_some_iff.1 stationAt).1
    refine ⟨running, sender, ?_, ?_, outgoing, admitted⟩
    · rw [early _ bound, seated]
    · rw [List.getElem?_append_left bound, stationAt]

theorem agree_attach (represents : system.Represents network) (clock : Clock) (bitRate : UInt32) :
    Agree (system.step (.attach .reset clock bitRate))
      (network.step (.attach .reset clock bitRate)) := by
  have present : (system.join .reset).wire.stations[system.wire.stations.length]? =
      some .reset := by simp [System.join]
  have taken := run_attach system.wire.stations.length .reset (system.join .reset).wire.pending
    clock bitRate rfl
  have outcome : system.step (.attach .reset clock bitRate) =
      (.done, ⟨⟨system.wire.stations ++ [Station.reset.taken clock], system.wire.pending⟩,
        system.seats ++ [.frozen { clock, settings := .ofBitRate bitRate }]⟩) := by
    simp only [System.step, System.attach, System.perform_eq present, taken]
    simp [System.settle, Except.map, System.join, System.hold, Wire.replace, ← represents.seats]
  rw [outcome]
  exact ⟨rfl, represents.joined (Station.parked_taken clock) _⟩

end System.Represents

namespace Station

variable {transfer : Transfer} {frame : Frame}

theorem reaches_eq {station : Station} (loopback own : Bool)
    (hears : Mcr.srxdis.isSet (station.memory.get .mcr) = false) :
    Wire.reaches loopback own station = !(loopback && !own) := by
  rw [Wire.reaches, hears]
  cases loopback <;> cases own <;> rfl

theorem Parked.pass {station : Station} (parked : station.Parked) (loopback : Bool) {number : Nat}
    (other : number ≠ transfer.sender) : station.pass transfer loopback number = station := by
  have deaf : (station.hear transfer).2 = station := by
    have still : station.follows transfer = false := by
      rw [follows, parked.silent, Bool.false_and]
    simp only [hear, still, Bool.false_eq_true, if_false]
  simp only [Station.pass, other, if_false, deaf, ite_self]

section
variable {running : Running} {member : Member} {busy : Bool} {station : Station}

theorem Hosts.pass_of_other (hosts : station.Hosts running member busy)
    (carries : transfer.Carries frame.draft frame.lengthCode) (loopback : Bool) {number : Nat}
    (other : number ≠ transfer.sender) :
    (station.pass transfer loopback number).Hosts running
        (if loopback then member else member.hear frame) busy ∧
      ∀ node, (station.pass transfer loopback number).outgoing node running.transmitBuffer.index =
        station.outgoing node running.transmitBuffer.index := by
  have apart : (number == transfer.sender) = false := by simpa using other
  simp only [Station.pass, other, if_false, apart, reaches_eq loopback false hosts.hears]
  cases loopback with
  | true => exact ⟨hosts, fun _ => rfl⟩
  | false =>
      exact ⟨hosts.hear carries, fun node =>
        hosts.outgoing_of_touches (hosts.touches_hear transfer carries) node⟩

theorem Hosts.pass_of_sender (hosts : station.Hosts running member true)
    (carries : transfer.Carries frame.draft frame.lengthCode) (loopback : Bool) {number : Nat}
    (own : transfer = station.outgoing number running.transmitBuffer.index) :
    (station.pass transfer loopback number).Hosts running (member.hear frame) false := by
  have sender : transfer.sender = number := by rw [own]; rfl
  have buffer : transfer.buffer = running.transmitBuffer.index := by rw [own]; rfl
  have control : transfer.control = station.control running.transmitBuffer.index := by rw [own]; rfl
  have heard := hosts.hear carries
  have touched := hosts.touches_hear transfer carries
  have data : MbCs.rtr.isSet
      ((station.hear transfer).2.control running.transmitBuffer.index) = false := by
    rw [touched.control hosts.sound.buffers.apart hosts.transmit_lt, ← control, carries.shown.rtr,
      carries.plain]
  simp only [Station.pass, sender, beq_self_eq_true, reaches_eq loopback true hosts.hears,
    Bool.not_true, Bool.and_false, Bool.not_false, if_true, buffer]
  exact heard.complete data

end

end Station

theorem Station.Plays.pass_of_other {station : Station} {busy : Bool} {seat : Seat} {node : Node}
    {transfer : Transfer} {frame : Frame} (plays : station.Plays busy seat node)
    (carries : transfer.Carries frame.draft frame.lengthCode) (loopback : Bool) {number : Nat}
    (other : number ≠ transfer.sender) :
    (station.pass transfer loopback number).Plays busy seat
      (if loopback then node else node.hear frame) := by
  cases plays with
  | gone =>
      simp only [Node.hear, ite_self]
      exact .gone
  | frozen parked =>
      simp only [Node.hear, ite_self, parked.pass _ other]
      exact .frozen parked
  | running hosts =>
      have next := (hosts.pass_of_other carries loopback other).1
      cases loopback with
      | true => exact .running next
      | false => exact .running next

structure System.Sending (system : System) (network : Network) (transfer : Transfer) (frame : Frame)
    (running : Running) (member : Member) (station : Station) : Prop where
  sender : transfer.sender = frame.sender
  carries : transfer.Carries frame.draft frame.lengthCode
  seated : system.seat frame.sender = .running running
  node : network.node frame.sender = .running member
  present : system.wire.stations[frame.sender]? = some station
  hosts : station.Hosts running member (network.busy frame.sender)
  outgoing : transfer = station.outgoing frame.sender running.transmitBuffer.index
  admitted : running.settings.refusal? frame.draft.content frame.length = none

namespace System.Sending

variable {system : System} {network : Network} {transfer : Transfer} {frame : Frame}
  {running : Running} {member : Member} {station : Station}

theorem sends (sending : system.Sending network transfer frame running member station) :
    system.wire.sends transfer.sender = true := by
  simp [Wire.sends, sending.sender, sending.present, sending.hosts.serves.running]

theorem loopback (sending : system.Sending network transfer frame running member station) :
    system.wire.loopback transfer.sender = network.loopback frame.sender := by
  simp [Wire.loopback, Network.loopback, sending.sender, sending.present,
    sending.hosts.serves.loopback, sending.node, sending.hosts.settings]

theorem buffer_lt (sending : system.Sending network transfer frame running member station) :
    transfer.buffer < 32 := by
  rw [sending.outgoing]
  exact Nat.lt_of_lt_of_le sending.hosts.transmit_lt (DataSize.bufferCount_le _)

end System.Sending

namespace System.Represents

variable {system after : System} {network : Network}

theorem sending (represents : system.Represents network) {transfer : Transfer} {frame : Frame}
    (queued : system.Queued transfer frame) :
    ∃ running member station, system.Sending network transfer frame running member station := by
  obtain ⟨running, station, seated, present, outgoing, admitted⟩ := queued.origin
  have plays := represents.plays frame.sender station present
  rw [seated] at plays
  generalize held : network.node frame.sender = node at plays
  cases plays with
  | running hosts =>
      exact ⟨running, _, station, queued.sender, queued.carries, seated, held, present, hosts,
        outgoing, admitted⟩

theorem queued_pass (represents : system.Represents network) {transfer later : Transfer}
    {frame waiting : Frame} (carries : transfer.Carries frame.draft frame.lengthCode)
    (loopback : Bool) (queued : system.Queued later waiting)
    (other : later.sender ≠ transfer.sender) (seats : after.seats = system.seats)
    (stations : after.wire.stations =
      system.wire.stations.mapIdx fun number station => station.pass transfer loopback number) :
    after.Queued later waiting := by
  obtain ⟨running, member, station, sending⟩ := represents.sending queued
  rw [sending.sender] at other
  have same := (sending.hosts.pass_of_other carries loopback other).2
  refine ⟨sending.sender, sending.carries, running,
    station.pass transfer loopback waiting.sender, ?_, ?_, ?_, sending.admitted⟩
  · rw [System.seat, seats]
    exact sending.seated
  · rw [stations, List.getElem?_mapIdx, sending.present, Option.map_some]
  · rw [same]
    exact sending.outgoing

theorem agree_deliverNext (represents : system.Represents network) :
    Agree (system.step .deliverNext) (network.step .deliverNext) := by
  have queue := represents.queue
  cases waiting : system.wire.pending with
  | nil =>
      rw [waiting, List.forall₂_nil_left_iff] at queue
      simp only [System.step, Network.step, Network.deliverNext, queue,
        Wire.deliverNext_none waiting]
      exact ⟨rfl, represents⟩
  | cons transfer rest =>
      rw [waiting, List.forall₂_cons_left_iff] at queue
      obtain ⟨frame, frames, queued, others, frameAt⟩ := queue
      obtain ⟨running, member, sender, sending⟩ := represents.sending queued
      have busy : network.busy frame.sender = true := by simp [Network.busy, frameAt]
      have distinct := represents.distinct
      rw [frameAt, List.map_cons, List.nodup_cons] at distinct
      simp only [System.step, Network.step, Network.deliverNext, frameAt,
        Wire.deliverNext_eq waiting represents.calm, sending.sends, if_true, sending.loopback]
      refine ⟨rfl, ⟨?_, ?_, ?_, ?_, ?_, distinct.2⟩⟩
      · simp [represents.seats]
      · simp [represents.nodes]
      · intro number after afterAt
        simp only [List.getElem?_mapIdx, Option.map_eq_some_iff] at afterAt
        obtain ⟨station, present, rfl⟩ := afterAt
        rw [Network.busy, Network.any_tail frameAt distinct.1, Network.node, Network.getD_mapIdx_hear]
        change Station.Plays _ _ (system.seat number) _
        have plays := represents.plays number station present
        by_cases same : number = frame.sender
        · subst same
          rw [if_pos rfl, bne_self_eq_false, Bool.and_false, if_neg Bool.false_ne_true]
          rw [sending.present, Option.some.injEq] at present
          rw [← present, sending.seated, sending.node]
          have hosts := sending.hosts
          rw [busy] at hosts
          exact .running (hosts.pass_of_sender sending.carries _ sending.outgoing)
        · have other : number ≠ transfer.sender := by rw [sending.sender]; exact same
          have unequal : (number != frame.sender) = true := by simpa using same
          rw [if_neg same, unequal, Bool.and_true]
          exact plays.pass_of_other sending.carries _ other
      · intro other member
        obtain ⟨number, numberBound, rfl⟩ := List.mem_mapIdx.mp member
        exact Station.time_pass _ _ (represents.calm _ (List.getElem_mem numberBound))
          sending.buffer_lt
      · have apart : ∀ other ∈ rest, other.sender ≠ transfer.sender := by
          intro other member same
          obtain ⟨paired, found, pair⟩ := exists_of_mem others member
          refine distinct.1 (List.mem_map.mpr ⟨paired, found, ?_⟩)
          rw [← pair.sender, same, sending.sender]
        refine ((List.forall₂_and_left _ _).mpr ⟨apart, others⟩).imp ?_
        rintro later waitingFrame ⟨unequal, pair⟩
        exact represents.queued_pass sending.carries _ pair unequal rfl rfl

theorem agree_step (represents : system.Represents network) {action : Action}
    (ordinary : action.Ordinary) : Agree (system.step action) (network.step action) := by
  cases action with
  | attach station clock bitRate =>
      simp only [Action.Ordinary] at ordinary
      subst ordinary
      exact represents.agree_attach clock bitRate
  | adjust number settings => exact represents.agree_adjust number settings
  | finalize number => exact represents.agree_finalize number
  | configure number => exact ordinary.elim
  | transmit number draft => exact represents.agree_transmit number draft
  | send number id payload => exact represents.agree_send number id payload
  | receive number => exact represents.agree_receive number
  | status number => exact represents.agree_status number
  | timeStamp number => exact represents.agree_timeStamp number
  | deliverNext => exact represents.agree_deliverNext
  | stall number => exact ordinary.elim

theorem agree_run (represents : system.Represents network) (actions : List Action)
    (ordinary : ∀ action ∈ actions, action.Ordinary) :
    (system.replies actions).map (Reply.map Message.reading) = network.replies actions ∧
      (system.after actions).Represents (network.after actions) := by
  induction actions generalizing system network with
  | nil => exact ⟨rfl, represents⟩
  | cons action rest ih =>
      have agree := represents.agree_step (ordinary action (by simp))
      have ⟨replies, last⟩ := ih agree.represents fun later member => ordinary later (by simp [member])
      exact ⟨congrArg₂ List.cons agree.reply replies, last⟩

theorem empty : System.empty.Represents Network.empty where
  seats := rfl
  nodes := rfl
  plays := by simp [System.empty, Wire.empty]
  calm := by simp [System.empty, Wire.empty, Wire.Calm]
  queue := .nil
  distinct := by simp [Network.empty]

theorem senders (represents : system.Represents network) :
    system.wire.pending.map Transfer.sender = network.queue.map Frame.sender := by
  rw [← List.forall₂_eq_eq_eq, List.forall₂_map_left_iff, List.forall₂_map_right_iff]
  exact represents.queue.imp fun _ _ queued => queued.sender

end System.Represents

theorem System.replies_eq_network (actions : List Action)
    (ordinary : ∀ action ∈ actions, action.Ordinary) :
    (System.empty.replies actions).map (Reply.map Message.reading) =
        Network.empty.replies actions ∧
      (System.empty.after actions).wire.pending.map Transfer.sender =
        (Network.empty.after actions).queue.map Frame.sender ∧
      ((Network.empty.after actions).queue.map Frame.sender).Nodup := by
  obtain ⟨replies, represents⟩ := Represents.empty.agree_run actions ordinary
  exact ⟨replies, represents.senders, represents.distinct⟩

/-- Two controllers with the default settings, of which the first sends twice to the identifier of the
second, before the first of the frames is delivered. -/
def System.meeting : List Action :=
  [.attach .reset .peripheral 500000, .attach .reset .oscillator 500000, .finalize 0, .finalize 1,
    .send 0 (.standard 0) [7, 8], .send 0 (.standard 0) [9], .deliverNext, .receive 1, .receive 1]

theorem System.meeting_replies :
    (∀ action ∈ meeting, action.Ordinary) ∧
      (System.empty.replies meeting).map (Reply.map Message.reading) =
        [.done, .done, .done, .done, .done, .wouldBlock, .delivered true,
          .message (Draft.reading ⟨.standard 0, .data [7, 8]⟩ 2 8 false 0), .wouldBlock] := by
  have ordinary : ∀ action ∈ meeting, action.Ordinary := by simp [meeting, Action.Ordinary]
  refine ⟨ordinary, ?_⟩
  rw [(System.replies_eq_network meeting ordinary).1]
  rfl

end BufferedCan
