import BufferedCan.Proofs.Network.Reconfiguration
import BufferedCan.Proofs.Network.Typestate

/-! What becomes of a transfer that still waits when its sender is set up again. Nothing takes it back: it
keeps its place in the queue. If its turn comes while the sender is frozen, it is dropped. If its turn
comes later, it is put on the wire, and the sender takes the buffer of the old number for the one that
was sent, whatever the new setup uses that buffer for and even if it has no such buffer. -/

namespace BufferedCan

namespace Action

def isDelivery : Action → Bool
  | .deliverNext => true
  | _ => false

def deliveries (actions : List Action) : Nat := actions.countP isDelivery

theorem isDelivery_of_node? {action : Action} {node : Nat} (about : action.node? = some node) :
    action.isDelivery = false := by
  cases action with
  | deliverNext => cases about
  | _ => rfl

end Action

namespace Memory

structure Lasting (offset : Nat) : Prop where
  timer : offset / 4 ≠ Register.timer.offset / 4
  flags : offset / 4 ≠ Register.iflag1.offset / 4
  ram : ∀ word < ramWords, offset / 4 ≠ ramOffset word / 4

end Memory

namespace Station

variable {station : Station} {offset : Nat}

theorem read_tick_of_lasting (lasting : Memory.Lasting offset) :
    station.tick.2.memory.read offset = station.memory.read offset := by
  rcases station.tick_cases with same | ⟨time, ticked⟩
  · rw [same]
  · rw [ticked]
    exact station.memory.read_write_of_ne time lasting.timer.symm

theorem read_raise_of_lasting (memory : Memory) (buffer : Nat) (lasting : Memory.Lasting offset) :
    (raise memory buffer).read offset = memory.read offset :=
  memory.read_write_of_ne _ lasting.flags.symm

theorem read_fill_of_lasting (transfer : Transfer) {buffer : Nat}
    (bound : buffer < station.layout.bufferCount) (lasting : Memory.Lasting offset) :
    (station.fill transfer buffer).memory.read offset = station.memory.read offset := by
  have room := station.layout.place_le bound
  rw [fill_eq, read_raise_of_lasting _ _ lasting]
  apply Memory.writeAll_of_outside
  rw [length_filling]
  -- An offset inside would be that of some word of the buffer memory.
  refine Decidable.byContradiction fun inside => ?_
  simp only [ramOffset] at inside
  have apart := lasting.ram (offset / 4 - 32)
  simp only [ramOffset, ramWords] at apart room
  omega

theorem read_hear_of_lasting (transfer : Transfer) (lasting : Memory.Lasting offset) :
    (station.hear transfer).2.memory.read offset = station.memory.read offset := by
  rcases station.hear_cases transfer with same | ticked | ⟨buffer, bound, filled⟩
  · rw [same]
  · rw [ticked, read_tick_of_lasting lasting]
  · rw [filled, read_tick_of_lasting lasting, read_fill_of_lasting transfer bound lasting]

theorem read_complete_of_lasting (buffer : Nat) (lasting : Memory.Lasting offset) :
    (station.complete buffer).memory.read offset = station.memory.read offset ∨
      station.layout.bufferCount ≤ buffer ∧
        offset / 4 = ramOffset (buffer * station.layout.bufferWords) / 4 := by
  by_cases place : offset / 4 = ramOffset (buffer * station.layout.bufferWords) / 4
  · refine .inr ⟨Nat.le_of_not_lt fun bound => ?_, place⟩
    have room := station.layout.place_le bound
    have words := station.layout.bufferWords_cases
    exact lasting.ram _ (by omega) place
  · left
    rw [complete_eq, read_raise_of_lasting _ _ lasting]
    exact station.memory.read_write_of_ne _ (Ne.symm place)

theorem read_pass_of_lasting (transfer : Transfer) (loopback : Bool) (place : Nat)
    (lasting : Memory.Lasting offset) :
    (station.pass transfer loopback place).memory.read offset = station.memory.read offset ∨
      place = transfer.sender ∧ station.layout.bufferCount ≤ transfer.buffer ∧
        offset / 4 = ramOffset (transfer.buffer * station.layout.bufferWords) / 4 := by
  have heard : ∀ reached : Bool, (if reached then (station.hear transfer).2 else station).layout =
      station.layout ∧ (if reached then (station.hear transfer).2 else station).memory.read offset =
        station.memory.read offset := by
    intro reached
    cases reached with
    | false => exact ⟨rfl, rfl⟩
    | true => exact ⟨(station.keepsSetup_hear transfer).layout, read_hear_of_lasting transfer lasting⟩
  obtain ⟨layout, read⟩ := heard (Wire.reaches loopback (place == transfer.sender) station)
  unfold pass
  simp only
  split
  next own =>
    rcases read_complete_of_lasting transfer.buffer lasting with same | ⟨beyond, spot⟩
    · exact .inl (same.trans read)
    · rw [layout] at beyond spot
      exact .inr ⟨own, beyond, spot⟩
  next => exact .inl read

/-- The controller of a sender takes a buffer for the one that was sent. Whatever the buffer was, its
code now says so. The receive buffer goes on receiving unless it is that buffer. -/
structure TakesForSent (running : Running) (buffer : Nat) (before after : Station) : Prop where
  flag : flagSet buffer (after.memory.get .iflag1) = true
  code : buffer < before.layout.bufferCount → after.code buffer =
    if MbCs.rtr.isSet (after.control buffer) then .rxEmpty else .txInactive
  receives : buffer ≠ running.receiveBuffer.index →
    (before.code running.receiveBuffer.index).receives = true →
      (after.code running.receiveBuffer.index).receives = true

theorem code_complete_self (station : Station) {buffer : Nat}
    (bound : buffer < station.layout.bufferCount) :
    (station.complete buffer).code buffer =
      if MbCs.rtr.isSet ((station.complete buffer).control buffer) then .rxEmpty
      else .txInactive := by
  have small : buffer < 32 := Nat.lt_of_lt_of_le bound (DataSize.bufferCount_le _)
  have room := station.layout.place_le bound
  have words := station.layout.bufferWords_cases
  simp only [ramWords] at room
  have remote : MbCs.rtr.isSet ((station.complete buffer).control buffer) =
      MbCs.rtr.isSet (station.control buffer) := by
    rw [control_eq (station.complete buffer), (station.keepsSetup_complete small).layout,
      station.ram_complete small (by omega), if_pos rfl, stamp,
      Field.isSet_set_of_disjoint (by decide), Field.isSet_set_of_disjoint (by decide)]
  rw [remote, code_complete station bound]

theorem receives_fill (transfer : Transfer) {buffer index : Nat}
    (bound : buffer < station.layout.bufferCount) (inside : index < station.layout.bufferCount)
    (open_ : (station.code index).receives = true) :
    ((station.fill transfer buffer).code index).receives = true := by
  by_cases own : index = buffer
  · subst own
    rw [code, station.control_fill transfer bound, ofBits_code_stamp, fillCode]
    split <;> rfl
  · rw [(station.touches_fill transfer bound).code own inside, open_]

theorem receives_hear (transfer : Transfer) {index : Nat}
    (inside : index < station.layout.bufferCount) (open_ : (station.code index).receives = true) :
    ((station.hear transfer).2.code index).receives = true := by
  have ticks (other : Station) (bound : index < other.layout.bufferCount) :
      other.tick.2.code index = other.code index := by
    have beside := other.touches_tick (index + 1)
    exact beside.code (by omega) bound
  rcases station.hear_cases transfer with same | ticked | ⟨buffer, bound, filled⟩
  · rw [same, open_]
  · rw [ticked, ticks station inside, open_]
  · have layout := (station.keepsSetup_fill transfer bound).layout
    rw [filled, ticks _ (by rw [layout]; exact inside)]
    exact receives_fill transfer bound inside open_

theorem Active.takesForSent {running : Running} (active : station.Active running)
    {transfer : Transfer} (small : transfer.buffer < 32) (loopback : Bool) :
    station.TakesForSent running transfer.buffer
      (station.pass transfer loopback transfer.sender) := by
  have inside := active.receive_lt
  have heard : ∀ reached : Bool,
      (if reached then (station.hear transfer).2 else station).layout = station.layout ∧
      ((station.code running.receiveBuffer.index).receives = true →
        ((if reached then (station.hear transfer).2 else station).code
          running.receiveBuffer.index).receives = true) := by
    intro reached
    cases reached with
    | false => exact ⟨rfl, fun open_ => open_⟩
    | true => exact ⟨(station.keepsSetup_hear transfer).layout, receives_hear transfer inside⟩
  unfold pass
  simp only [if_true]
  obtain ⟨layout, still⟩ := heard (Wire.reaches loopback (transfer.sender == transfer.sender) station)
  generalize (if Wire.reaches loopback (transfer.sender == transfer.sender) station = true then
    (station.hear transfer).2 else station) = reached at layout still ⊢
  refine ⟨?_, fun bound => ?_, fun apart open_ => ?_⟩
  · rw [reached.iflag1_complete small, flagSet_raise _ _ small]
    simp
  · rw [← layout] at bound
    exact reached.code_complete_self bound
  · rw [← layout] at inside
    rw [(reached.touches_complete small).code apart.symm inside]
    exact still open_

end Station

namespace System

variable {system : System} {node : Nat} {transfer : Transfer}

theorem pending_step (system : System) (action : Action) :
    ∃ sent, (system.step action).2.wire.pending =
      (if action.isDelivery then system.wire.pending.tail else system.wire.pending) ++ sent := by
  cases about : action.node? with
  | some node =>
      have confined : system.Confined node (system.step action).2 := confined_step about
      obtain ⟨sent, grown, -⟩ := confined.wire.pending
      exact ⟨sent, by rw [grown, Action.isDelivery_of_node? about]; rfl⟩
  | none =>
      cases action with
      | attach station clock bitRate =>
          obtain ⟨sent, grown, -⟩ := (system.confined_attach station clock bitRate).wire.pending
          exact ⟨sent, grown⟩
      | deliverNext => exact ⟨[], by rw [List.append_nil]; exact system.wire.pending_deliverNext⟩
      | _ => cases about

theorem queued_step (action : Action) {position : Nat}
    (queued : system.wire.pending[position + Action.deliveries [action]]? = some transfer) :
    (system.step action).2.wire.pending[position]? = some transfer := by
  obtain ⟨sent, result⟩ := system.pending_step action
  have kept : (if action.isDelivery then system.wire.pending.tail else system.wire.pending)[position]? =
      some transfer := by
    simp only [Action.deliveries, List.countP_cons, List.countP_nil, Nat.zero_add] at queued
    cases delivers : action.isDelivery with
    | false => simpa [delivers] using queued
    | true => simpa [delivers, List.getElem?_tail] using queued
  rw [result, List.getElem?_append_left (List.getElem?_eq_some_iff.1 kept).1, kept]

theorem queued_after (actions : List Action) (position : Nat)
    (queued : system.wire.pending[position + Action.deliveries actions]? = some transfer) :
    (system.after actions).wire.pending[position]? = some transfer := by
  induction actions generalizing system with
  | nil => exact queued
  | cons action rest ih =>
      refine ih (queued_step action ?_)
      have count : Action.deliveries (action :: rest) =
          Action.deliveries rest + Action.deliveries [action] := by
        simp only [Action.deliveries, List.countP_cons, List.countP_nil, Nat.zero_add]
      rwa [count, ← Nat.add_assoc] at queued

theorem Consistent.seat_lt (consistent : system.Consistent) (held : system.seat node ≠ .gone) :
    node < system.seats.length := by
  obtain ⟨station, present⟩ := consistent.present held
  rw [consistent.seats]
  exact (List.getElem?_eq_some_iff.1 present).1

theorem Consistent.frozen_step (consistent : system.Consistent)
    (frozen : ∃ frozen, system.seat node = .frozen frozen) {action : Action}
    (kept : action ≠ .finalize node) :
    ∃ frozen, (system.step action).2.seat node = .frozen frozen := by
  obtain ⟨owner, seat⟩ := frozen
  have held : system.seat node ≠ .gone := by simp [seat]
  have bound := consistent.seat_lt held
  cases about : action.node? with
  | none =>
      cases action with
      | attach station clock bitRate =>
          have apart : node ≠ system.wire.stations.length := by rw [← consistent.seats]; omega
          have others := (system.confined_attach station clock bitRate).others node apart
          exact ⟨owner, others.trans ((join_seat station bound).trans seat)⟩
      | deliverNext => exact ⟨owner, seat⟩
      | _ => cases about
  | some other =>
      by_cases own : node = other
      · subst own
        cases action with
        | attach => cases about
        | deliverNext => cases about
        | adjust own settings =>
            cases about
            refine ⟨{ owner with settings := settings }, ?_⟩
            simp only [System.step, seat]
            rw [seat_hold bound, if_pos rfl]
        | finalize own => cases about; exact absurd rfl kept
        | configure own => cases about; exact ⟨owner, by simp only [System.step, seat]⟩
        | transmit own draft => cases about; exact ⟨owner, by simp only [System.step, call, seat]⟩
        | send own id payload => cases about; exact ⟨owner, by simp only [System.step, call, seat]⟩
        | receive own => cases about; exact ⟨owner, by simp only [System.step, call, seat]⟩
        | status own => cases about; exact ⟨owner, by simp only [System.step, call, seat]⟩
        | timeStamp own => cases about; exact ⟨owner, by simp only [System.step, call, seat]⟩
        | stall own => exact ⟨owner, seat⟩
      · exact ⟨owner, ((confined_step about).others node own).trans seat⟩

theorem Consistent.frozen_after (consistent : system.Consistent)
    (frozen : ∃ frozen, system.seat node = .frozen frozen) (actions : List Action)
    (kept : Action.finalize node ∉ actions) :
    ∃ frozen, (system.after actions).seat node = .frozen frozen := by
  induction actions generalizing system with
  | nil => exact frozen
  | cons action rest ih =>
      have stays : action ≠ .finalize node := fun same => kept (same ▸ List.mem_cons_self ..)
      exact ih (consistent.step action) (consistent.frozen_step frozen stays)
        fun member => kept (List.mem_cons_of_mem _ member)

theorem Consistent.frozen_of_configure (consistent : system.Consistent)
    (done : (system.step (.configure node)).1 = .done) :
    ∃ frozen, (system.step (.configure node)).2.seat node = .frozen frozen := by
  cases seat : system.seat node with
  | gone => simp only [System.step, seat] at done; cases done
  | frozen frozen => simp only [System.step, seat] at done; cases done
  | running running =>
      have held : system.seat node ≠ .gone := by simp [seat]
      have bound := consistent.seat_lt held
      obtain ⟨station, present⟩ := consistent.present held
      simp only [System.step, seat, configure, perform_eq present] at done ⊢
      cases outcome : (running.freeze.run.run (Station.device node)
          (station, system.wire.pending)).1 with
      | error error => rw [outcome] at done; cases done
      | ok frozen => exact ⟨frozen, (seat_hold bound _ node).trans (if_pos rfl)⟩

/-- The transfer is the next to be delivered, and the delivery is noticed nowhere. -/
def Drops (system : System) (transfer : Transfer) : Prop :=
  ∃ rest, system.wire.pending = transfer :: rest ∧
    system.step .deliverNext = (.delivered true, ⟨⟨system.wire.stations, rest⟩, system.seats⟩)

/-- The transfer is the next to be delivered. Every controller that it reaches hears it, and the sender
completes it. -/
def Sends (system : System) (transfer : Transfer) : Prop :=
  ∃ rest, system.wire.pending = transfer :: rest ∧
    system.step .deliverNext = (.delivered true,
      ⟨⟨system.wire.stations.mapIdx
        (Station.pass transfer (system.wire.loopback transfer.sender)), rest⟩, system.seats⟩)

theorem Consistent.drops (consistent : system.Consistent) (calm : system.wire.Calm)
    (first : system.wire.pending[0]? = some transfer)
    (frozen : ∃ frozen, system.seat transfer.sender = .frozen frozen) : system.Drops transfer := by
  obtain ⟨owner, seat⟩ := frozen
  have held : system.seat transfer.sender ≠ .gone := by simp [seat]
  obtain ⟨station, present⟩ := consistent.present held
  have halted := consistent.fits transfer.sender station present
  rw [seat] at halted
  have silent : system.wire.sends transfer.sender = false := by
    simp [Wire.sends, present, (Station.Halted.paused halted).offline]
  cases waiting : system.wire.pending with
  | nil => simp [waiting] at first
  | cons head rest =>
      obtain rfl : head = transfer := by simpa [waiting] using first
      refine ⟨rest, waiting, ?_⟩
      simp only [System.step, Wire.deliverNext_eq waiting calm, silent, Bool.false_eq_true, if_false]
      rfl

theorem Consistent.sends (consistent : system.Consistent) (calm : system.wire.Calm)
    (first : system.wire.pending[0]? = some transfer) {running : Running}
    (seat : system.seat transfer.sender = .running running) : system.Sends transfer := by
  have held : system.seat transfer.sender ≠ .gone := by simp [seat]
  obtain ⟨station, present⟩ := consistent.present held
  have active := consistent.fits transfer.sender station present
  rw [seat] at active
  have online : system.wire.sends transfer.sender = true := by
    simp [Wire.sends, present, (Station.Active.online active).running]
  cases waiting : system.wire.pending with
  | nil => simp [waiting] at first
  | cons head rest =>
      obtain rfl : head = transfer := by simpa [waiting] using first
      refine ⟨rest, waiting, ?_⟩
      simp only [System.step, Wire.deliverNext_eq waiting calm, online, if_true]
      rfl

/-- Outside the buffer memory, the flags and the timer the next delivery changes nothing, with one
exception: where the sender's layout would have the control word of the transfer's buffer, if it had
that buffer. -/
def Spares (system : System) : Prop :=
  ∀ node station, system.wire.stations[node]? = some station →
    ∃ after, (system.step .deliverNext).2.wire.stations[node]? = some after ∧
      ∀ offset, Memory.Lasting offset → after.memory.read offset = station.memory.read offset ∨
        ∃ transfer, system.wire.pending.head? = some transfer ∧ node = transfer.sender ∧
          station.layout.bufferCount ≤ transfer.buffer ∧
          offset / 4 = ramOffset (transfer.buffer * station.layout.bufferWords) / 4

theorem spares_of_calm (calm : system.wire.Calm) : system.Spares := by
  intro node station present
  cases waiting : system.wire.pending with
  | nil =>
      simp only [System.step, Wire.deliverNext_none waiting]
      exact ⟨station, present, fun _ _ => .inl rfl⟩
  | cons transfer rest =>
      simp only [System.step, Wire.deliverNext_eq waiting calm]
      cases system.wire.sends transfer.sender with
      | false => exact ⟨station, present, fun _ _ => .inl rfl⟩
      | true =>
          refine ⟨station.pass transfer (system.wire.loopback transfer.sender) node, ?_, ?_⟩
          · simp only [if_true, List.getElem?_mapIdx, present, Option.map_some]
          intro offset lasting
          rcases station.read_pass_of_lasting transfer
            (system.wire.loopback transfer.sender) node lasting with same | moved
          · exact .inl same
          · exact .inr ⟨transfer, rfl, moved⟩

theorem Consistent.takesForSent (consistent : system.Consistent) (sends : system.Sends transfer)
    {running : Running} (seat : system.seat transfer.sender = .running running) :
    ∃ station after, system.wire.stations[transfer.sender]? = some station ∧
      (system.step .deliverNext).2.wire.stations[transfer.sender]? = some after ∧
      station.TakesForSent running transfer.buffer after := by
  obtain ⟨rest, waiting, delivered⟩ := sends
  have held : system.seat transfer.sender ≠ .gone := by simp [seat]
  obtain ⟨station, present⟩ := consistent.present held
  have active := consistent.fits transfer.sender station present
  rw [seat] at active
  have small := consistent.buffers transfer (by simp [waiting])
  refine ⟨station, _, present, ?_, Station.Active.takesForSent active small
    (system.wire.loopback transfer.sender)⟩
  simp only [delivered, List.getElem?_mapIdx, present, Option.map_some]

theorem Consistent.drops_at_turn (consistent : system.Consistent) (calm : system.wire.Calm)
    (frozen : ∃ frozen, system.seat transfer.sender = .frozen frozen) (actions : List Action)
    (fair : ∀ action ∈ actions, action.Calm) (kept : Action.finalize transfer.sender ∉ actions)
    (queued : system.wire.pending[Action.deliveries actions]? = some transfer) :
    (system.after actions).Drops transfer :=
  (consistent.run actions).drops (consistent.calm_run calm actions fair)
    (queued_after actions 0 (by rwa [Nat.zero_add])) (consistent.frozen_after frozen actions kept)

theorem Watches.sends_at_turn {running : Running} {held : Held}
    (watches : system.Watches transfer.sender running held) (actions : List Action)
    (fair : ∀ action ∈ actions, action.Calm) (stays : Action.configure transfer.sender ∉ actions)
    (queued : system.wire.pending[Action.deliveries actions]? = some transfer) :
    (system.after actions).Sends transfer ∧
      ∃ station after, (system.after actions).wire.stations[transfer.sender]? = some station ∧
        ((system.after actions).step .deliverNext).2.wire.stations[transfer.sender]? = some after ∧
        station.TakesForSent running transfer.buffer after := by
  have last := watches.run actions fair stays
  have front := queued_after actions 0 (by rwa [Nat.zero_add])
  have sends := last.consistent.sends last.calm front last.seat
  exact ⟨sends, last.consistent.takesForSent sends last.seat⟩

/-- A node is frozen while a transfer of its own still waits, and then set up again. If the turn of the
transfer comes while the node is frozen, the transfer is dropped. If it comes after that, it is sent like
any other: every controller that it reaches hears it, and the node takes the buffer of that number for
the one that was sent, be it the receive buffer. Throughout, the word of a buffer that the layout does
not have is all that a delivery changes outside the buffer memory, the flags and the timer. -/
theorem unsent_after_finalize (before between later : List Action) (node position : Nat)
    (transfer : Transfer) (fair : ∀ action ∈ before ++ between ++ later, action.Calm)
    (queued : (empty.after before).wire.pending[position]? = some transfer)
    (own : transfer.sender = node)
    (configured : ((empty.after before).step (.configure node)).1 = .done)
    (kept : Action.finalize node ∉ between)
    (done : ((((empty.after before).step (.configure node)).2.after between).step
      (.finalize node)).1 = .done)
    (stays : Action.configure node ∉ later) :
    ∃ running,
      let frozen := ((empty.after before).step (.configure node)).2
      let start := ((frozen.after between).step (.finalize node)).2
      start.seat node = .running running ∧
      (∀ first rest, between = first ++ .deliverNext :: rest →
        Action.deliveries first = position → (frozen.after first).Drops transfer) ∧
      (∀ first rest, later = first ++ .deliverNext :: rest →
        Action.deliveries between + Action.deliveries first = position →
        (start.after first).Sends transfer ∧
          ∃ station after, (start.after first).wire.stations[node]? = some station ∧
            ((start.after first).step .deliverNext).2.wire.stations[node]? = some after ∧
            station.TakesForSent running transfer.buffer after) ∧
      ∀ first rest, before ++ .configure node :: (between ++ .finalize node :: later) =
        first ++ .deliverNext :: rest → (empty.after first).Spares := by
  subst own
  have consistent := consistent_empty.run before
  have calm := calm_after fun action (member : action ∈ before) => fair action (by simp [member])
  have fairBetween : ∀ action ∈ between, action.Calm := fun action member =>
    fair action (by simp [member])
  have fairLater : ∀ action ∈ later, action.Calm := fun action member =>
    fair action (by simp [member])
  -- Until the node is finalized it is frozen.
  have consistentFrozen := consistent.step (.configure transfer.sender)
  have calmFrozen := consistent.calm_step calm (.configure transfer.sender) trivial
  have queuedFrozen := queued_step (.configure transfer.sender) queued
  have frozen := consistent.frozen_of_configure configured
  have consistentStop := consistentFrozen.run between
  have calmStop := consistentFrozen.calm_run calmFrozen between fairBetween
  obtain ⟨owner, plan, running, stopped, changed, started⟩ := consistentStop.started done
  have watches := started.watches consistentStop calmStop
  refine ⟨running, watches.seat, ?_, ?_, ?_⟩
  · intro first rest split turn
    rw [split] at kept fairBetween
    exact consistentFrozen.drops_at_turn calmFrozen frozen first
      (fun action member => fairBetween action (by simp [member]))
      (fun member => kept (by simp [member])) (by rwa [turn])
  · intro first rest split turn
    rw [split] at stays fairLater
    have queuedStop := queued_after between (Action.deliveries first)
      (by rwa [Nat.add_comm, turn])
    have queuedStart := queued_step (.finalize transfer.sender) queuedStop
    exact watches.sends_at_turn first (fun action member => fairLater action (by simp [member]))
      (fun member => stays (by simp [member])) queuedStart
  · intro first rest split
    refine spares_of_calm (calm_after fun action member => ?_)
    have inside : action ∈ before ++ .configure transfer.sender ::
        (between ++ .finalize transfer.sender :: later) := by
      rw [split]
      simp [member]
    simp only [List.mem_append, List.mem_cons] at inside
    rcases inside with early | rfl | early | rfl | late
    · exact fair action (by simp [early])
    · trivial
    · exact fair action (by simp [early])
    · trivial
    · exact fair action (by simp [late])

def exchange : List Action :=
  [.attach .reset .oscillator 500000, .finalize 0, .send 0 (.standard 5) [7]]

def exchanged : Settings :=
  { Settings.ofBitRate 500000 with buffers := { transmit := 4, receive := 0 } }

def exchangeDone : System :=
  ((((empty.after exchange).step (.configure 0)).2.after [.adjust 0 exchanged]).step
    (.finalize 0)).2

theorem exchange_answers :
    ((empty.after exchange).wire.pending.map fun transfer => (transfer.sender, transfer.buffer)) =
        [(0, 0)] ∧
      ((empty.after exchange).step (.configure 0)).1 = .done ∧
      ((((empty.after exchange).step (.configure 0)).2.after [.adjust 0 exchanged]).step
        (.finalize 0)).1 = .done ∧
      (exchangeDone.wire.stations[0]?.map fun station => station.code 0) = some .rxEmpty ∧
      ((exchangeDone.step .deliverNext).2.wire.stations[0]?.map fun station => station.code 0) =
        some .txInactive := by
  decide +kernel

/-- The old frame is sent after all, and the new receive buffer stops receiving. -/
theorem exchange_unsent :
    ∃ transfer running station after,
      (empty.after exchange).wire.pending[0]? = some transfer ∧ exchangeDone.Sends transfer ∧
        exchangeDone.wire.stations[0]? = some station ∧
        (exchangeDone.step .deliverNext).2.wire.stations[0]? = some after ∧
        station.TakesForSent running 0 after ∧ station.code 0 = .rxEmpty ∧
        after.code 0 = .txInactive := by
  obtain ⟨waiting, configured, done, opened, closed⟩ := exchange_answers
  have fair : ∀ action ∈ exchange ++ [.adjust 0 exchanged] ++ [.deliverNext], action.Calm := by
    simp [exchange, Action.Calm, Station.time_reset]
  obtain ⟨transfer, only, origin⟩ := List.map_eq_singleton_iff.1 waiting
  obtain ⟨sender, buffer⟩ := Prod.mk.inj origin
  have queued : (empty.after exchange).wire.pending[0]? = some transfer := by rw [only]; rfl
  obtain ⟨running, -, -, later, -⟩ := unsent_after_finalize exchange [.adjust 0 exchanged]
    [.deliverNext] 0 0 transfer fair queued sender configured (by simp) done (by simp)
  obtain ⟨sends, station, after, before, changed, taken⟩ := later [] [] rfl rfl
  rw [after_nil, ← exchangeDone] at sends before changed
  rw [buffer] at taken
  rw [before, Option.map_some, Option.some.injEq] at opened
  rw [changed, Option.map_some, Option.some.injEq] at closed
  exact ⟨transfer, running, station, after, queued, sends, before, changed, taken, opened, closed⟩

end System

end BufferedCan
