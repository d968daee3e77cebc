import BufferedCan.Proofs.Network.Consistency

/-! What reading finds after a controller was set up, perhaps not for the first time. Setting up clears the
buffer memory, but it neither clears the interrupt flags nor takes back the transfers that wait. A flag
that was raised before, and a transfer from before that is completed in what has become the receive
buffer, are taken for a frame that nobody has sent. -/

namespace BufferedCan

namespace Wire

def stores (wire : Wire) (node buffer : Nat) : Bool :=
  match wire.pending, wire.stations[node]? with
  | transfer :: _, some station =>
    wire.sends transfer.sender &&
      (reaches (wire.loopback transfer.sender) (node == transfer.sender) station &&
        (station.follows transfer && station.target? transfer == some buffer))
  | _, _ => false

def completes (wire : Wire) (node buffer : Nat) : Bool :=
  match wire.pending with
  | transfer :: _ => wire.sends transfer.sender && (node == transfer.sender &&
      transfer.buffer == buffer)
  | [] => false

end Wire

/-- What a receive buffer offers to whoever reads it next. -/
inductive Held
  | nothing
  /-- The flag is raised, but no frame was stored since the setup or the last call that read. -/
  | leftover
  | frame (overrun : Bool)
  deriving DecidableEq

namespace Held

def raised (flag : Bool) : Held := if flag then leftover else nothing

/-- A frame that is stored on top of anything is taken for the second of two. -/
def stored : Held → Held
  | nothing => frame false
  | _ => frame true

def completed : Held → Held
  | frame _ => frame false
  | _ => leftover

def Shows : Held → Reply Message → Prop
  | nothing, reply => reply = .wouldBlock
  | leftover, reply => ∃ message, reply = .message message ∧ message.overrun = false
  | frame overrun, reply => ∃ message, reply = .message message ∧ message.overrun = overrun

end Held

namespace System

def observe (system : System) (node buffer : Nat) (held : Held) : Action → Held
  | .receive other => if other = node then .nothing else held
  | .deliverNext =>
    let heard := if system.wire.stores node buffer then held.stored else held
    if system.wire.completes node buffer then heard.completed else heard
  | _ => held

def held (system : System) (node buffer : Nat) : Held → List Action → Held
  | held, [] => held
  | held, action :: rest =>
    (system.step action).2.held node buffer (system.observe node buffer held action) rest

def Unstored (system : System) (node buffer : Nat) (actions : List Action) : Prop :=
  ∀ first rest, actions = first ++ .deliverNext :: rest →
    (system.after first).wire.stores node buffer = false

end System

namespace Station

structure Offers (running : Running) (held : Held) (station : Station) : Prop where
  active : station.Active running
  flag : flagSet running.receiveBuffer.index (station.memory.get .iflag1) = (held != .nothing)
  settled : (station.code running.receiveBuffer.index).isBusy = false
  overrun : held ≠ .nothing →
    (station.code running.receiveBuffer.index = .rxOverrun ↔ held = .frame true)

variable {running : Running} {held : Held} {station after : Station}

theorem Active.receive_lt (active : station.Active running) :
    running.receiveBuffer.index < station.layout.bufferCount :=
  Station.receive_lt active.sound active.serves

theorem Offers.elsewhere (offers : station.Offers running held) {buffer : Nat}
    (touched : station.Touches buffer after) (apart : running.receiveBuffer.index ≠ buffer)
    (flag : flagSet running.receiveBuffer.index (after.memory.get .iflag1) =
      flagSet running.receiveBuffer.index (station.memory.get .iflag1)) :
    after.Offers running held := by
  have code := touched.code apart offers.active.receive_lt
  refine ⟨offers.active.keep touched.setup, ?_, ?_, ?_⟩
  · rw [flag, offers.flag]
  · rw [code, offers.settled]
  · rw [code]
    exact offers.overrun

theorem Offers.tick (offers : station.Offers running held) :
    station.tick.2.Offers running held := by
  have apart := offers.active.sound.buffers.apart
  refine offers.elsewhere (station.touches_tick running.transmitBuffer.index) apart.symm ?_
  rw [get_tick _ (by decide)]

theorem Offers.fill (offers : station.Offers running held) (transfer : Transfer) {buffer : Nat}
    (bound : buffer < station.layout.bufferCount) :
    (station.fill transfer buffer).Offers running
      (if buffer = running.receiveBuffer.index then held.stored else held) := by
  have small : buffer < 32 := Nat.lt_of_lt_of_le bound (DataSize.bufferCount_le _)
  have touched := station.touches_fill transfer bound
  have flags : flagSet running.receiveBuffer.index
      ((station.fill transfer buffer).memory.get .iflag1) =
        (flagSet running.receiveBuffer.index (station.memory.get .iflag1) ||
          decide (buffer = running.receiveBuffer.index)) := by
    rw [station.iflag1_fill transfer bound, flagSet_raise _ _ small]
  split
  next own =>
    subst own
    have code : (station.fill transfer running.receiveBuffer.index).code
        running.receiveBuffer.index = if held = .nothing then .rxFull else .rxOverrun := by
      rw [Station.code, station.control_fill transfer bound, ofBits_code_stamp, fillCode,
        offers.flag]
      cases held <;> rfl
    refine ⟨offers.active.keep touched.setup, ?_, ?_, ?_⟩
    · rw [flags]
      cases held <;> simp [Held.stored]
    · rw [code]
      split <;> rfl
    · intro _
      rw [code]
      cases held <;> simp [Held.stored]
  next apart =>
    refine offers.elsewhere touched (Ne.symm apart) ?_
    rw [flags]
    simp [apart]

theorem Offers.hear (offers : station.Offers running held) (transfer : Transfer) :
    (station.hear transfer).2.Offers running
      (if station.follows transfer &&
          station.target? transfer == some running.receiveBuffer.index then held.stored
        else held) := by
  unfold Station.hear
  cases follows : station.follows transfer with
  | false => simpa [follows] using offers
  | true =>
      cases found : station.target? transfer with
      | none => simpa using offers.tick
      | some buffer =>
          have filled := (offers.fill transfer (target?_bound found)).tick
          simpa using filled

theorem Offers.complete (offers : station.Offers running held) {buffer : Nat} (small : buffer < 32) :
    (station.complete buffer).Offers running
      (if buffer = running.receiveBuffer.index then held.completed else held) := by
  have touched := station.touches_complete small
  have flags : flagSet running.receiveBuffer.index
      ((station.complete buffer).memory.get .iflag1) =
        (flagSet running.receiveBuffer.index (station.memory.get .iflag1) ||
          decide (buffer = running.receiveBuffer.index)) := by
    rw [station.iflag1_complete small, flagSet_raise _ _ small]
  split
  next own =>
    subst own
    have code := station.code_complete offers.active.receive_lt
    refine ⟨offers.active.keep touched.setup, ?_, ?_, ?_⟩
    · rw [flags]
      cases held <;> simp [Held.completed]
    · rw [code]
      split <;> rfl
    · intro _
      rw [code]
      cases held <;> split <;> simp [Held.completed]
  next apart =>
    refine offers.elsewhere touched (Ne.symm apart) ?_
    rw [flags]
    simp [apart]

theorem Offers.pass (offers : station.Offers running held) {transfer : Transfer}
    (small : transfer.buffer < 32) (loopback : Bool) (place : Nat) :
    (station.pass transfer loopback place).Offers running
      (let heard := if Wire.reaches loopback (place == transfer.sender) station &&
          (station.follows transfer &&
            station.target? transfer == some running.receiveBuffer.index) then held.stored
        else held
      if place == transfer.sender && transfer.buffer == running.receiveBuffer.index then
        heard.completed else heard) := by
  have heard : (if Wire.reaches loopback (place == transfer.sender) station then
      (station.hear transfer).2 else station).Offers running
      (if Wire.reaches loopback (place == transfer.sender) station && (station.follows transfer &&
          station.target? transfer == some running.receiveBuffer.index) then held.stored
        else held) := by
    cases Wire.reaches loopback (place == transfer.sender) station with
    | true => simpa using offers.hear transfer
    | false => simpa using offers
  unfold Station.pass
  by_cases own : place = transfer.sender
  · have sent := heard.complete small
    simpa [own] using sent
  · simpa [own] using heard

theorem Offers.receive (offers : station.Offers running held) (node : Nat)
    (waiting : List Transfer) :
    ∃ answer after, running.receive.run (Station.device node) (station, waiting) =
        (answer, after, waiting) ∧ held.Shows (.ofReceive answer) ∧
      after.Offers running .nothing := by
  have active := offers.active
  have small : running.receiveBuffer.index < 32 :=
    Nat.lt_of_lt_of_le active.receive_lt (DataSize.bufferCount_le _)
  have coded : station.codeOf running.receiveBuffer = station.code running.receiveBuffer.index :=
    codeOf_eq (by rw [active.serves.layout, active.sound.buffers.receiveSize])
  have overrun : (station.message running.receiveBuffer).overrun =
      (station.code running.receiveBuffer.index == .rxOverrun) := by
    rw [← coded]
    rfl
  rw [Running.run_receive, coded, offers.settled, offers.flag]
  by_cases empty : held = .nothing
  · subst empty
    rw [if_neg (by simp)]
    exact ⟨none, station, rfl, rfl, offers⟩
  · have touched := station.touches_read (station.memory.get .iflag1 &&&
      ~~~flagWord running.receiveBuffer.index) running.transmitBuffer.index
    have code := touched.code active.sound.buffers.apart.symm active.receive_lt
    rw [if_pos ⟨by simpa using empty, active.sound.patient, rfl⟩]
    refine ⟨_, _, rfl, ?_, active.keep touched.setup, ?_, ?_, fun absent => absurd rfl absent⟩
    · have shown := offers.overrun empty
      cases held with
      | nothing => exact absurd rfl empty
      | leftover =>
          refine ⟨_, rfl, ?_⟩
          rw [overrun, beq_eq_false_iff_ne, Ne, shown]
          simp
      | frame second =>
          refine ⟨_, rfl, ?_⟩
          rw [overrun, Bool.eq_iff_iff, beq_iff_eq, shown]
          simp
    · rw [get_setRegister, if_pos rfl, flagSet_clear _ small small]
      simp
    · rw [code, offers.settled]

theorem offers_of_applied {plan : Plan} {mcr : UInt32} {before : Station}
    (active : after.Active running) (same : running.receiveBuffer = plan.receiveBuffer)
    (applied : plan.Applied running.settings mcr before after) :
    after.Offers running
      (.raised (flagSet running.receiveBuffer.index (before.memory.get .iflag1))) := by
  have flags : after.memory.get .iflag1 = before.memory.get .iflag1 :=
    applied.get .iflag1 (by decide)
  have agreed : after.layout = plan.receiveBuffer.size := by
    rw [active.serves.layout, ← same, active.sound.buffers.receiveSize]
  have armed := armed_of_applied applied agreed
  rw [← same] at armed
  refine ⟨active, ?_, ?_, ?_⟩
  · rw [flags]
    cases flagSet running.receiveBuffer.index (before.memory.get .iflag1) <;> rfl
  · rw [armed]
    rfl
  · intro _
    rw [armed]
    cases flagSet running.receiveBuffer.index (before.memory.get .iflag1) <;> simp [Held.raised]

end Station

namespace System

structure Watches (node : Nat) (running : Running) (held : Held) (system : System) : Prop where
  consistent : system.Consistent
  calm : system.wire.Calm
  seat : system.seat node = .running running
  station : ∃ station, system.wire.stations[node]? = some station ∧ station.Offers running held

variable {system : System} {node : Nat} {running : Running} {held : Held} {action : Action}

theorem Watches.next (watches : system.Watches node running held) (fair : action.Calm)
    {next : Held} (seat : (system.step action).2.seat node = .running running)
    (station : ∃ station, (system.step action).2.wire.stations[node]? = some station ∧
      station.Offers running next) : (system.step action).2.Watches node running next :=
  ⟨watches.consistent.step action, watches.consistent.calm_step watches.calm action fair, seat,
    station⟩

theorem Watches.others (watches : system.Watches node running held) (fair : action.Calm)
    {other : Nat} (confined : system.Confined other (system.step action).2) (apart : node ≠ other) :
    (system.step action).2.Watches node running held := by
  obtain ⟨station, present, offers⟩ := watches.station
  refine watches.next fair ?_ ⟨station, ?_, offers⟩
  · rw [confined.others node apart, watches.seat]
  · rw [confined.wire.others node apart, present]

theorem Watches.attach (watches : system.Watches node running held) {station : Station}
    {clock : Clock} {bitRate : UInt32} (fair : (Action.attach station clock bitRate).Calm) :
    (system.step (.attach station clock bitRate)).2.Watches node running held := by
  have confined := system.confined_attach station clock bitRate
  obtain ⟨own, present, offers⟩ := watches.station
  have bound := (List.getElem?_eq_some_iff.1 present).1
  have apart : node ≠ system.wire.stations.length := by omega
  refine watches.next fair ?_ ⟨own, ?_, offers⟩
  · have inside : node < system.seats.length := by rw [watches.consistent.seats]; exact bound
    exact (confined.others node apart).trans ((join_seat station inside).trans watches.seat)
  · exact (confined.wire.others node apart).trans ((join_station station bound).trans present)

theorem Watches.deliver (watches : system.Watches node running held) :
    (system.step .deliverNext).2.Watches node running
      (system.observe node running.receiveBuffer.index held .deliverNext) := by
  obtain ⟨station, present, offers⟩ := watches.station
  have fair : Action.deliverNext.Calm := trivial
  refine watches.next fair watches.seat ?_
  cases waiting : system.wire.pending with
  | nil =>
      simp only [step, Wire.deliverNext_none waiting, observe, Wire.stores, Wire.completes, waiting,
        Bool.false_eq_true, if_false]
      exact ⟨station, present, offers⟩
  | cons transfer rest =>
      have small := watches.consistent.buffers transfer (by simp [waiting])
      simp only [step, Wire.deliverNext_eq waiting watches.calm, observe, Wire.stores,
        Wire.completes, waiting, present]
      cases sends : system.wire.sends transfer.sender with
      | false =>
          simp only [Bool.false_and, Bool.false_eq_true, if_false]
          exact ⟨station, present, offers⟩
      | true =>
          have passed := offers.pass small (system.wire.loopback transfer.sender) node
          simp only [Bool.true_and, if_true]
          exact ⟨_, by simp only [List.getElem?_mapIdx, present, Option.map_some], passed⟩

theorem Watches.call (watches : system.Watches node running held) {α : Type}
    (answer : α → Reply Message) (program : Running → Program registers α) {next : Held}
    (same : system.step action = system.call node answer program) (fair : action.Calm)
    (changes : ∀ station, station.Offers running held →
      Station.Offers running next
        ((program running).run (Station.device node) (station, system.wire.pending)).2.1) :
    (system.step action).2.Watches node running next := by
  obtain ⟨station, present, offers⟩ := watches.station
  have bound := (List.getElem?_eq_some_iff.1 present).1
  have result : (system.step action).2 = ⟨system.wire.replace node
      ((program running).run (Station.device node) (station, system.wire.pending)).2,
        system.seats⟩ := by
    rw [same, System.call, watches.seat]
    simp only [perform_eq present]
  refine watches.next fair ?_ ⟨_, ?_, changes station offers⟩
  · rw [result]
    exact watches.seat
  · rw [result]
    exact system.wire.station_replace _ bound

theorem Watches.transmit (watches : system.Watches node running held) (draft : Running → Draft)
    (same : system.step action =
      system.call node .ofTransmit fun running => running.transmitDraft (draft running))
    (fair : action.Calm) : (system.step action).2.Watches node running held := by
  refine watches.call _ _ same fair ?_
  intro station offers
  have apart := offers.active.sound.buffers.apart
  have small := Nat.lt_of_lt_of_le offers.active.receive_lt (DataSize.bufferCount_le _)
  obtain ⟨answer, after, sent, transmitting, changes⟩ :=
    offers.active.transmitDraft node system.wire.pending (draft running)
  rw [transmitting]
  exact offers.elsewhere changes.touches apart.symm (changes.flags _ small apart.symm)

theorem Watches.own (watches : system.Watches node running held) (fair : action.Calm)
    (about : action.node? = some node) (kept : action ≠ .configure node) :
    (system.step action).2.Watches node running
      (system.observe node running.receiveBuffer.index held action) := by
  cases action with
  | attach => cases about
  | deliverNext => cases about
  | configure own => cases about; exact absurd rfl kept
  | adjust own settings =>
      cases about
      refine watches.next fair ?_ ?_
      · simp only [System.step, watches.seat]
      · simp only [System.step, watches.seat]
        exact watches.station
  | finalize own =>
      cases about
      refine watches.next fair ?_ ?_
      · simp only [System.step, watches.seat]
      · simp only [System.step, watches.seat]
        exact watches.station
  | transmit own draft => cases about; exact watches.transmit (fun _ => draft) rfl fair
  | send own id payload =>
      cases about
      exact watches.transmit (fun running => running.draft id payload) rfl fair
  | receive own =>
      cases about
      refine watches.call .ofReceive Running.receive rfl fair ?_
      intro station offers
      obtain ⟨answer, after, receiving, -, left⟩ := offers.receive node system.wire.pending
      rw [receiving]
      simp only [observe, if_true]
      exact left
  | status own =>
      cases about
      refine watches.call .ofStatus (fun _ => Running.statuses) rfl fair ?_
      intro station offers
      rw [Running.run_statuses]
      exact offers
  | timeStamp own =>
      cases about
      refine watches.call .time (fun _ => Running.timeStamp) rfl fair ?_
      intro station offers
      rw [Running.run_timeStamp]
      exact offers.elsewhere (station.touches_timerReads _ running.transmitBuffer.index)
        offers.active.sound.buffers.apart.symm rfl
  | stall own =>
      cases about
      obtain ⟨station, present, offers⟩ := watches.station
      refine watches.next fair watches.seat ⟨station.stall, ?_, ?_⟩
      · simp only [System.step, Wire.stall, Wire.modify, List.getElem?_modify_eq, present]
        rfl
      · have active : station.Fits (.running running) := offers.active
        exact ⟨active.stall, offers.flag, offers.settled, offers.overrun⟩

theorem Watches.step (watches : system.Watches node running held) (fair : action.Calm)
    (kept : action ≠ .configure node) :
    (system.step action).2.Watches node running
      (system.observe node running.receiveBuffer.index held action) := by
  cases about : action.node? with
  | none =>
      cases action with
      | attach station clock bitRate => exact watches.attach fair
      | deliverNext => exact watches.deliver
      | _ => cases about
  | some other =>
      by_cases own : other = node
      · subst own
        exact watches.own fair about kept
      · have unnoticed := watches.others fair (confined_step about) (Ne.symm own)
        cases action with
        | receive reader =>
            cases about
            simp only [observe, if_neg own]
            exact unnoticed
        | deliverNext => cases about
        | _ => exact unnoticed

theorem Watches.run (watches : system.Watches node running held) (actions : List Action)
    (fair : ∀ action ∈ actions, action.Calm) (kept : Action.configure node ∉ actions) :
    (system.after actions).Watches node running
      (system.held node running.receiveBuffer.index held actions) := by
  induction actions generalizing system held with
  | nil => exact watches
  | cons action rest ih =>
      have stepped := watches.step (fair action (by simp))
        fun same => kept (same ▸ List.mem_cons_self ..)
      exact ih stepped (fun later member => fair later (by simp [member]))
        fun member => kept (List.mem_cons_of_mem _ member)

theorem Started.watches {frozen : Frozen} {plan : Plan} {before changed : Station}
    (started : Started node frozen plan running before changed system)
    (consistent : system.Consistent) (calm : system.wire.Calm) :
    (system.step (.finalize node)).2.Watches node running
      (.raised (flagSet running.receiveBuffer.index (before.memory.get .iflag1))) := by
  have applied := started.applied
  have settings : running.settings = frozen.settings := by rw [started.handed]
  have receives : running.receiveBuffer = plan.receiveBuffer := by rw [started.handed]
  rw [← settings] at applied
  exact ⟨consistent.step _, consistent.calm_step calm (.finalize node) trivial,
    started.seated consistent, changed, started.placed,
    Station.offers_of_applied started.active receives applied⟩

theorem Watches.reply (watches : system.Watches node running held) :
    held.Shows (system.step (.receive node)).1 := by
  obtain ⟨station, present, offers⟩ := watches.station
  obtain ⟨answer, after, receiving, shows, -⟩ := offers.receive node system.wire.pending
  simp only [System.step, System.call, watches.seat, perform_eq present, receiving]
  exact shows

theorem held_of_unstored (system : System) (node buffer : Nat) (held : Held)
    (actions : List Action) (unstored : system.Unstored node buffer actions)
    (none : ∀ overrun, held ≠ .frame overrun) :
    ∀ overrun, system.held node buffer held actions ≠ .frame overrun := by
  induction actions generalizing system held with
  | nil => exact none
  | cons action rest ih =>
      refine ih (system.step action).2 _ ?_ ?_
      · intro first later split
        exact unstored (action :: first) later (by rw [split]; rfl)
      · intro overrun
        cases action with
        | receive other =>
            simp only [observe]
            split
            next => simp
            next => exact none overrun
        | deliverNext =>
            have quiet : system.wire.stores node buffer = false := unstored [] rest rfl
            simp only [observe, quiet, Bool.false_eq_true, if_false]
            split
            next =>
              cases held with
              | frame first => exact absurd rfl (none first)
              | nothing => simp [Held.completed]
              | leftover => simp [Held.completed]
            next => exact none overrun
        | _ => exact none overrun

def Quiet (system : System) (node buffer : Nat) : Prop :=
  ∀ transfer ∈ system.wire.pending, transfer.sender = node → transfer.buffer ≠ buffer

theorem Quiet.completes {buffer : Nat} (quiet : system.Quiet node buffer) :
    system.wire.completes node buffer = false := by
  unfold Wire.completes
  split
  next transfer later waiting =>
    by_cases own : node = transfer.sender
    · have other := quiet transfer (by simp [waiting]) own.symm
      simp [other]
    · simp [own]
  next => rfl

theorem Watches.quiet_call (watches : system.Watches node running held)
    (quiet : system.Quiet node running.receiveBuffer.index) {α : Type} (answer : α → Reply Message)
    (program : Running → Program registers α)
    (same : system.step action = system.call node answer program)
    (asks : ∀ station, station.Active running → ∃ sent,
      ((program running).run (Station.device node) (station, system.wire.pending)).2.2 =
        system.wire.pending ++ sent ∧
      ∀ transfer ∈ sent, transfer.buffer = running.transmitBuffer.index) :
    (system.step action).2.Quiet node running.receiveBuffer.index := by
  obtain ⟨station, present, offers⟩ := watches.station
  obtain ⟨sent, pending, own⟩ := asks station offers.active
  rw [same, System.call, watches.seat]
  simp only [perform_eq present]
  intro transfer member sender
  simp only [Wire.replace, pending] at member
  rcases List.mem_append.mp member with old | new
  · exact quiet transfer old sender
  · rw [own transfer new]
    exact offers.active.sound.buffers.apart

theorem Watches.quiet_transmit (watches : system.Watches node running held)
    (quiet : system.Quiet node running.receiveBuffer.index) (draft : Running → Draft)
    (same : system.step action =
      system.call node .ofTransmit fun running => running.transmitDraft (draft running)) :
    (system.step action).2.Quiet node running.receiveBuffer.index := by
  refine watches.quiet_call quiet _ _ same ?_
  intro station active
  obtain ⟨answer, after, sent, transmitting, changes⟩ :=
    active.transmitDraft node system.wire.pending (draft running)
  refine ⟨sent, by rw [transmitting], ?_⟩
  intro transfer member
  rw [changes.asked transfer member]
  rfl

theorem Quiet.confined {buffer other : Nat} {after : System} (quiet : system.Quiet node buffer)
    (apart : node ≠ other) (pending : ∃ sent, after.wire.pending = system.wire.pending ++ sent ∧
      ∀ transfer ∈ sent, transfer.From other) : after.Quiet node buffer := by
  obtain ⟨sent, grown, origin⟩ := pending
  intro transfer member sender
  rw [grown] at member
  rcases List.mem_append.mp member with old | new
  · exact quiet transfer old sender
  · exact absurd (sender.symm.trans (origin transfer new).1) apart

theorem Quiet.deliver {buffer : Nat} (quiet : system.Quiet node buffer) :
    (system.step .deliverNext).2.Quiet node buffer := by
  intro transfer member
  have pending : (system.step .deliverNext).2.wire.pending = system.wire.pending.tail :=
    system.wire.pending_deliverNext
  rw [pending] at member
  exact quiet transfer (List.mem_of_mem_tail member)

theorem Watches.quiet_own (watches : system.Watches node running held)
    (quiet : system.Quiet node running.receiveBuffer.index) (about : action.node? = some node)
    (kept : action ≠ .configure node) :
    (system.step action).2.Quiet node running.receiveBuffer.index := by
  cases action with
  | attach => cases about
  | deliverNext => cases about
  | configure own => cases about; exact absurd rfl kept
  | adjust own settings => cases about; simpa only [System.step, watches.seat] using quiet
  | finalize own => cases about; simpa only [System.step, watches.seat] using quiet
  | transmit own draft => cases about; exact watches.quiet_transmit quiet (fun _ => draft) rfl
  | send own id payload =>
      cases about
      exact watches.quiet_transmit quiet (fun running => running.draft id payload) rfl
  | receive own =>
      cases about
      refine watches.quiet_call quiet .ofReceive Running.receive rfl ?_
      intro station _
      refine ⟨[], ?_, by simp⟩
      rw [Running.run_receive, List.append_nil]
      split <;> rfl
  | status own =>
      cases about
      refine watches.quiet_call quiet .ofStatus (fun _ => Running.statuses) rfl ?_
      intro station _
      exact ⟨[], by rw [Running.run_statuses, List.append_nil], by simp⟩
  | timeStamp own =>
      cases about
      refine watches.quiet_call quiet .time (fun _ => Running.timeStamp) rfl ?_
      intro station _
      exact ⟨[], by rw [Running.run_timeStamp, List.append_nil], by simp⟩
  | stall own => cases about; exact quiet

theorem Watches.quiet_step (watches : system.Watches node running held)
    (quiet : system.Quiet node running.receiveBuffer.index) (kept : action ≠ .configure node) :
    (system.step action).2.Quiet node running.receiveBuffer.index := by
  cases about : action.node? with
  | none =>
      cases action with
      | attach station clock bitRate =>
          obtain ⟨own, present, -⟩ := watches.station
          have bound := (List.getElem?_eq_some_iff.1 present).1
          have apart : node ≠ system.wire.stations.length := by omega
          exact quiet.confined apart (system.confined_attach station clock bitRate).wire.pending
      | deliverNext => exact quiet.deliver
      | _ => cases about
  | some other =>
      by_cases own : other = node
      · subst own
        exact watches.quiet_own quiet about kept
      · exact quiet.confined (Ne.symm own) (confined_step about).wire.pending

theorem Watches.held_of_quiet (watches : system.Watches node running held)
    (quiet : system.Quiet node running.receiveBuffer.index) (fresh : held ≠ .leftover)
    (actions : List Action) (fair : ∀ action ∈ actions, action.Calm)
    (kept : Action.configure node ∉ actions) :
    system.held node running.receiveBuffer.index held actions ≠ .leftover := by
  induction actions generalizing system held with
  | nil => exact fresh
  | cons action rest ih =>
      have stays : action ≠ .configure node := fun same => kept (same ▸ List.mem_cons_self ..)
      refine ih (watches.step (fair action (by simp)) stays) (watches.quiet_step quiet stays) ?_
        (fun later member => fair later (by simp [member]))
        fun member => kept (List.mem_cons_of_mem _ member)
      cases action with
      | receive other =>
          simp only [observe]
          split
          next => simp
          next => exact fresh
      | deliverNext =>
          simp only [observe, quiet.completes, Bool.false_eq_true, if_false]
          split
          next => cases held <;> simp [Held.stored]
          next => exact fresh
      | _ => exact fresh

theorem held_nil (system : System) (node buffer : Nat) (held : Held) :
    system.held node buffer held [] = held := rfl

theorem held_append (system : System) (node buffer : Nat) (held : Held) (first second : List Action) :
    system.held node buffer held (first ++ second) =
      (system.after first).held node buffer (system.held node buffer held first) second := by
  induction first generalizing system held with
  | nil => rfl
  | cons action rest ih => exact ih (system.step action).2 _

/-- After a finalization that was answered as done, reading answers with what the receive buffer offers.
That is a frame only if one was stored since. Without one it is nothing or what is left over, and only
then is the first frame that is stored taken for an overrun. Something can be left over only if the flag
of the buffer was raised when the controller was set up, or if a transfer of its own waited then in the
buffer of that number. -/
theorem receive_after_finalize (before later : List Action) (node : Nat)
    (fair : ∀ action ∈ before ++ later, action.Calm)
    (done : ((empty.after before).step (.finalize node)).1 = .done)
    (kept : Action.configure node ∉ later) :
    ∃ running station,
      let system := empty.after before
      let start := (system.step (.finalize node)).2
      let buffer := running.receiveBuffer.index
      let first := Held.raised (flagSet buffer (station.memory.get .iflag1))
      let held := start.held node buffer first
      system.wire.stations[node]? = some station ∧ start.seat node = .running running ∧
      (held later).Shows ((start.after later).step (.receive node)).1 ∧
      (start.Unstored node buffer later → held later = .nothing ∨ held later = .leftover) ∧
      (start.Unstored node buffer later → (start.after later).wire.stores node buffer = true →
        held (later ++ [.deliverNext]) = .frame (held later == .leftover &&
          !(start.after later).wire.completes node buffer)) ∧
      (held later = .leftover → first = .leftover ∨
        ∃ transfer ∈ system.wire.pending, transfer.sender = node ∧ transfer.buffer = buffer) := by
  have consistent := consistent_empty.run before
  have calm := consistent_empty.calm_run (by simp [empty, Wire.empty, Wire.Calm]) before
    fun action member => fair action (by simp [member])
  have fairLater : ∀ action ∈ later, action.Calm := fun action member =>
    fair action (by simp [member])
  obtain ⟨frozen, plan, running, station, changed, started⟩ := consistent.started done
  have watches := started.watches consistent calm
  have empty_handed (unstored : ((empty.after before).step (.finalize node)).2.Unstored node
      running.receiveBuffer.index later) :=
    held_of_unstored _ _ _ (Held.raised (flagSet running.receiveBuffer.index
      (station.memory.get .iflag1))) later unstored (by
        intro overrun
        cases flagSet running.receiveBuffer.index (station.memory.get .iflag1) <;>
          simp [Held.raised])
  refine ⟨running, station, started.present, watches.seat, (watches.run later fairLater kept).reply,
    ?_, ?_, ?_⟩
  · intro unstored
    have frameless := empty_handed unstored
    generalize System.held _ _ _ _ later = held at frameless
    cases held with
    | nothing => exact .inl rfl
    | leftover => exact .inr rfl
    | frame overrun => exact absurd rfl (frameless overrun)
  · intro unstored stores
    have frameless := empty_handed unstored
    rw [held_append]
    simp only [System.held, observe, stores, if_true]
    generalize System.held _ _ _ _ later = held at frameless
    cases held with
    | frame overrun => exact absurd rfl (frameless overrun)
    | nothing => split <;> rfl
    | leftover => split <;> simp_all [Held.stored, Held.completed]
  · intro left
    by_cases waits : ∃ transfer ∈ (empty.after before).wire.pending, transfer.sender = node ∧
        transfer.buffer = running.receiveBuffer.index
    · exact .inr waits
    · refine .inl (Decidable.byContradiction fun fresh => ?_)
      refine watches.held_of_quiet ?_ fresh later fairLater kept left
      intro transfer member sender same
      rw [started.result] at member
      exact waits ⟨transfer, member, sender, same⟩

def reuse : List Action :=
  [.attach .reset .oscillator 500000, .attach .reset .oscillator 500000, .finalize 0, .finalize 1,
    .send 1 (.standard 0) [7], .deliverNext, .configure 0]

theorem reuse_answers :
    ((empty.after reuse).step (.finalize 0)).1 = .done ∧
      (((empty.after reuse).step (.finalize 0)).2.step (.receive 0)).1 ≠ .wouldBlock := by
  decide +kernel

/-- What it reads then is a message that nobody has sent. -/
theorem reuse_leftover :
    (∀ action ∈ reuse ++ [], action.Calm) ∧
      ((empty.after reuse).step (.finalize 0)).1 = .done ∧ Action.configure 0 ∉ [] ∧
      ∃ message, (((empty.after reuse).step (.finalize 0)).2.step (.receive 0)).1 =
        .message message ∧ message.overrun = false := by
  have fair : ∀ action ∈ reuse ++ [], action.Calm := by
    simp [reuse, Action.Calm, Station.time_reset]
  obtain ⟨done, answered⟩ := reuse_answers
  refine ⟨fair, done, by simp, ?_⟩
  obtain ⟨running, station, -, -, shows, -⟩ :=
    receive_after_finalize reuse [] 0 fair done (by simp)
  rw [after_nil, held_nil] at shows
  cases raised : flagSet running.receiveBuffer.index (station.memory.get .iflag1) with
  | false =>
      rw [raised] at shows
      exact absurd shows answered
  | true =>
      rw [raised] at shows
      exact shows

end System

end BufferedCan
