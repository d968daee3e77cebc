import BufferedCan.Proofs.Controller.Holding
import BufferedCan.Proofs.Controller.Rates
import BufferedCan.Proofs.Network.Confinement

/-! What every run keeps, whatever is called in whatever order and whatever the controllers were like when
they were connected: each controller is what its holder takes it for. -/

namespace BufferedCan

def Seat.clock? : Seat → Option Clock
  | .gone => none
  | .frozen owner => some owner.clock
  | .running owner => some owner.clock

def Station.Fits (station : Station) : Seat → Prop
  | .gone => True
  | .frozen frozen => station.Halted frozen.clock
  | .running running => station.Active running

theorem Station.Fits.keep {seat : Seat} {before after : Station} (fits : before.Fits seat)
    (kept : before.KeepsSetup after) : after.Fits seat := by
  cases seat with
  | gone => trivial
  | frozen frozen => exact Station.Halted.keep fits kept
  | running running => exact Station.Active.keep fits kept

theorem Station.Fits.stall {seat : Seat} {station : Station} (fits : station.Fits seat) :
    station.stall.Fits seat := by
  cases seat with
  | gone => trivial
  | frozen frozen =>
      have halted : station.Halted frozen.clock := fits
      exact ⟨halted.awake, halted.asks, halted.frozen, halted.clock⟩
  | running running =>
      have active : station.Active running := fits
      have serves := active.serves
      exact ⟨active.sound, ⟨serves.running, serves.fd, serves.layout, serves.active,
        serves.loopback, serves.mask⟩, active.ready, active.thawed, active.powered, active.clock⟩

namespace System

structure Consistent (system : System) : Prop where
  seats : system.seats.length = system.wire.stations.length
  fits : ∀ (node : Nat) (station : Station), system.wire.stations[node]? = some station →
    station.Fits (system.seat node)
  buffers : ∀ transfer ∈ system.wire.pending, transfer.buffer < 32

/-- What became of a controller and its holder, who knows of no other clock than the given one. -/
structure Turned (node : Nat) (given : Option Clock) (station changed : Station) (after : System) :
    Prop where
  present : after.wire.stations[node]? = some changed
  fits : changed.Fits (after.seat node)
  spared : station.Spared changed
  clock : ∀ clock, (after.seat node).clock? = some clock → given = some clock

variable {system after : System} {node : Nat} {station changed : Station} {given : Option Clock}

theorem consistent_empty : empty.Consistent :=
  ⟨rfl, by simp [empty, Wire.empty], by simp [empty, Wire.empty]⟩

theorem Consistent.present (consistent : system.Consistent) (held : system.seat node ≠ .gone) :
    ∃ station, system.wire.stations[node]? = some station := by
  by_cases bound : node < system.wire.stations.length
  · exact ⟨_, List.getElem?_eq_getElem bound⟩
  · refine absurd ?_ held
    rw [System.seat, List.getD_eq_getElem?_getD, List.getElem?_eq_none, Option.getD_none]
    rw [consistent.seats]
    omega

theorem Consistent.confined (consistent : system.Consistent) (confined : system.Confined node after)
    (own : ∀ station, after.wire.stations[node]? = some station → station.Fits (after.seat node)) :
    after.Consistent := by
  obtain ⟨sent, pending, origin⟩ := confined.wire.pending
  refine ⟨?_, ?_, ?_⟩
  · rw [confined.length, confined.wire.length, consistent.seats]
  · intro other station present
    by_cases same : other = node
    · subst same
      exact own station present
    · rw [confined.wire.others other same] at present
      rw [confined.others other same]
      exact consistent.fits other station present
  · intro transfer member
    rw [pending] at member
    rcases List.mem_append.mp member with old | new
    · exact consistent.buffers transfer old
    · exact (origin transfer new).2

theorem Consistent.keep (consistent : system.Consistent)
    (present : system.wire.stations[node]? = some station) :
    ∃ changed, Turned node (system.seat node).clock? station changed system :=
  ⟨station, present, consistent.fits node station present, .refl station, fun _ same => same⟩

theorem turned_perform (present : system.wire.stations[node]? = some station)
    {left : Station × List Transfer} (fits : left.1.Fits (system.seat node))
    (spared : station.Spared left.1) :
    ∃ changed, Turned node (system.seat node).clock? station changed
      ⟨system.wire.replace node left, system.seats⟩ :=
  ⟨left.1, system.wire.station_replace _ (List.getElem?_eq_some_iff.1 present).1, fits, spared,
    fun _ same => same⟩

theorem turned_hold (present : system.wire.stations[node]? = some station)
    (seats : system.seats.length = system.wire.stations.length)
    {left : Station × List Transfer} {seat : Seat} (fits : left.1.Fits seat)
    (spared : station.Spared left.1) (clock : ∀ clock, seat.clock? = some clock → given = some clock) :
    ∃ changed, Turned node given station changed
      (hold ⟨system.wire.replace node left, system.seats⟩ node seat) := by
  have bound : node < system.wire.stations.length := (List.getElem?_eq_some_iff.1 present).1
  have seated := seat_hold (show node < (System.mk (system.wire.replace node left)
    system.seats).seats.length by rw [← seats] at bound; exact bound) seat node
  rw [if_pos rfl] at seated
  refine ⟨left.1, system.wire.station_replace _ bound, ?_, spared, ?_⟩
  · rw [seated]
    exact fits
  · rw [seated]
    exact clock

theorem turned_lost (present : system.wire.stations[node]? = some station)
    (seats : system.seats.length = system.wire.stations.length)
    {left : Station × List Transfer} (spared : station.Spared left.1) :
    ∃ changed, Turned node given station changed
      (hold ⟨system.wire.replace node left, system.seats⟩ node .gone) := by
  have fits : left.1.Fits .gone := trivial
  refine turned_hold present seats fits spared ?_
  intro clock taken
  cases taken

theorem Consistent.turned_call {α : Type} (consistent : system.Consistent)
    (present : system.wire.stations[node]? = some station) (answer : α → Reply Message)
    (program : Running → Program registers α)
    (keeps : ∀ running, system.seat node = .running running → station.Active running →
      station.KeepsSetup
          ((program running).run (Station.device node) (station, system.wire.pending)).2.1 ∧
        ((program running).run (Station.device node)
          (station, system.wire.pending)).2.1.memory.get .timer = station.memory.get .timer) :
    ∃ changed, Turned node (system.seat node).clock? station changed
      (system.call node answer program).2 := by
  have fits := consistent.fits node station present
  unfold call
  split
  next running seat =>
    rw [seat] at fits
    obtain ⟨kept, timer⟩ := keeps running seat fits
    simp only [perform_eq present]
    exact turned_perform present (by rw [seat]; exact Station.Active.keep fits kept)
      ⟨timer, kept.inherits⟩
  next => exact consistent.keep present

theorem Consistent.turned_transmit (consistent : system.Consistent)
    (present : system.wire.stations[node]? = some station) (draft : Running → Draft) :
    ∃ changed, Turned node (system.seat node).clock? station changed
      (system.call node .ofTransmit fun running => running.transmitDraft (draft running)).2 := by
  refine consistent.turned_call present _ _ ?_
  intro running _ active
  obtain ⟨answer, after, sent, transmitting, changes⟩ :=
    active.transmitDraft node system.wire.pending (draft running)
  rw [transmitting]
  exact ⟨changes.touches.setup, changes.timer⟩

theorem Consistent.turned_adjust (consistent : system.Consistent)
    (present : system.wire.stations[node]? = some station) {frozen : Frozen}
    (seat : system.seat node = .frozen frozen) (settings : Settings) :
    ∃ changed, Turned node (some frozen.clock) station changed
      (system.hold node (.frozen { frozen with settings := settings })) := by
  have fits := consistent.fits node station present
  rw [seat] at fits
  have same : (station, system.wire.pending).1.Fits
      (.frozen { frozen with settings := settings }) := fits
  have held := turned_hold present consistent.seats same (.refl station)
    fun _ (given : some frozen.clock = _) => given
  rw [Wire.replace_self present] at held
  exact held

theorem Consistent.turned_finalize (consistent : system.Consistent)
    (present : system.wire.stations[node]? = some station) {frozen : Frozen}
    (seat : system.seat node = .frozen frozen) :
    ∃ changed, Turned node (some frozen.clock) station changed (system.finalize node frozen).2 := by
  have halted := consistent.fits node station present
  rw [seat] at halted
  simp only [finalize, perform_eq present]
  cases found : frozen.settings.plan frozen.clock with
  | error problem =>
      simp only [Frozen.start, found, Program.run_done]
      exact turned_lost present consistent.seats (.refl station)
  | ok outcome =>
      cases outcome with
      | error error =>
          simp only [Frozen.start, found, Program.run_done]
          exact turned_lost present consistent.seats (.refl station)
      | ok plan =>
          obtain ⟨after, starting, applied⟩ :=
            Frozen.run_start node station system.wire.pending found
          have planned := Settings.planned_of_ok found
          have spared := Station.spared_of_applied planned applied
          rw [starting]
          cases accepted : frozen.verdict plan (plan.finalMcr frozen.settings station) with
          | error error => exact turned_lost present consistent.seats spared
          | ok running =>
              have active : after.Fits (.running running) :=
                Station.Halted.start halted planned applied accepted
              refine turned_hold present consistent.seats active spared ?_
              obtain ⟨-, -, -, rfl⟩ := Frozen.verdict_eq_ok_iff.mp accepted
              intro clock same
              exact same

theorem Consistent.turned_configure (consistent : system.Consistent)
    (present : system.wire.stations[node]? = some station) {running : Running}
    (seat : system.seat node = .running running) :
    ∃ changed, Turned node (some running.clock) station changed
      (system.configure node running).2 := by
  have active := consistent.fits node station present
  rw [seat] at active
  have spared := station.spared_mcr station.frozenWord
  simp only [configure, perform_eq present, run_freeze]
  split
  next reached =>
    have fits : (station.setRegister .mcr station.frozenWord).Fits
        (.frozen { clock := running.clock, settings := running.settings }) :=
      Station.Active.freeze active reached.2
    exact turned_hold present consistent.seats fits spared fun _ same => same
  next => exact turned_lost present consistent.seats spared

theorem Consistent.turned (consistent : system.Consistent) {action : Action}
    (about : action.node? = some node) (present : system.wire.stations[node]? = some station) :
    ∃ changed, Turned node (system.seat node).clock? station changed (system.step action).2 := by
  cases action with
  | attach => cases about
  | deliverNext => cases about
  | adjust own settings =>
      cases about
      simp only [step]
      split
      next frozen seat =>
        rw [seat]
        exact consistent.turned_adjust present seat settings
      next => exact consistent.keep present
  | finalize own =>
      cases about
      simp only [step]
      split
      next frozen seat =>
        rw [seat]
        exact consistent.turned_finalize present seat
      next => exact consistent.keep present
  | configure own =>
      cases about
      simp only [step]
      split
      next running seat =>
        rw [seat]
        exact consistent.turned_configure present seat
      next => exact consistent.keep present
  | transmit own draft =>
      cases about
      exact consistent.turned_transmit present fun _ => draft
  | send own id payload =>
      cases about
      exact consistent.turned_transmit present fun running => running.draft id payload
  | receive own =>
      cases about
      refine consistent.turned_call present _ _ ?_
      intro running _ _
      rw [Running.run_receive]
      split
      next =>
        refine ⟨(station.touches_read _ 0).setup, ?_⟩
        rw [Station.get_setRegister, if_neg (by decide)]
      next => exact ⟨.refl station, rfl⟩
  | status own =>
      cases about
      refine consistent.turned_call present _ _ ?_
      intro running _ _
      rw [Running.run_statuses]
      exact ⟨.refl station, rfl⟩
  | timeStamp own =>
      cases about
      refine consistent.turned_call present _ _ ?_
      intro running _ _
      rw [Running.run_timeStamp]
      exact ⟨(station.touches_timerReads _ 0).setup, rfl⟩
  | stall own =>
      cases about
      refine ⟨station.stall, ?_, ?_, ⟨rfl, Station.keepsOutside_of_get fun _ _ => rfl⟩,
        fun _ same => same⟩
      · simp only [step, Wire.stall, Wire.modify, List.getElem?_modify_eq, present]
        rfl
      · have fits := consistent.fits node station present
        exact fits.stall

theorem join_station (station : Station) (old : node < system.wire.stations.length) :
    (system.join station).wire.stations[node]? = system.wire.stations[node]? := by
  simp only [System.join, List.getElem?_append_left old]

theorem join_seat (station : Station) (old : node < system.seats.length) :
    (system.join station).seat node = system.seat node := by
  simp only [System.seat, System.join, List.getD_eq_getElem?_getD, List.getElem?_append_left old]

theorem Consistent.join (consistent : system.Consistent) (station : Station) :
    (system.join station).Consistent := by
  refine ⟨by simp [System.join, consistent.seats], ?_, consistent.buffers⟩
  intro node other present
  by_cases old : node < system.wire.stations.length
  · rw [join_station station old] at present
    rw [join_seat station (by rwa [consistent.seats])]
    exact consistent.fits node other present
  · have seat : (system.join station).seat node = .gone := by
      rw [← consistent.seats] at old
      simp only [System.seat, System.join, List.getD_eq_getElem?_getD,
        List.getElem?_append_right (Nat.not_lt.mp old)]
      cases node - system.seats.length <;> rfl
    rw [seat]
    trivial

theorem join_present (system : System) (station : Station) :
    (system.join station).wire.stations[system.wire.stations.length]? = some station := by
  simp [System.join]

def takeOver (system : System) (node : Nat) (clock : Clock) (bitRate : UInt32) :
    Reply Message × System :=
  match system.perform node (Frozen.attach clock bitRate).run with
  | (outcome, after) => after.settle node (outcome.map .frozen)

theorem Consistent.turned_takeOver (consistent : system.Consistent)
    (present : system.wire.stations[node]? = some station) (clock : Clock) (bitRate : UInt32) :
    ∃ changed, Turned node (some clock) station changed
      (system.takeOver node clock bitRate).2 := by
  have seats := consistent.seats
  simp only [takeOver, perform_eq present]
  cases answers : station.stalled with
  | true =>
      obtain ⟨error, after, ran, left⟩ := run_attach_of_stalled node station
        system.wire.pending clock bitRate answers
      have spared : station.Spared after := by
        rcases left with rfl | rfl
        · exact station.spared_disabled
        · exact station.spared_clocked clock
      rw [ran]
      exact turned_lost present seats spared
  | false =>
      have fits : (station.taken clock).Fits (.frozen { clock, settings := .ofBitRate bitRate }) :=
        station.halted_taken clock answers
      rw [run_attach _ _ _ _ _ answers]
      exact turned_hold present seats fits (station.spared_taken clock) fun _ same => same

theorem Consistent.turned_attach (consistent : system.Consistent) (station : Station)
    (clock : Clock) (bitRate : UInt32) :
    ∃ changed, Turned system.wire.stations.length (some clock) station changed
      (system.attach station clock bitRate).2 :=
  (consistent.join station).turned_takeOver (system.join_present station) clock bitRate

theorem Consistent.deliver (consistent : system.Consistent) :
    (system.step .deliverNext).2.Consistent := by
  have pending : (system.step .deliverNext).2.wire.pending = system.wire.pending.tail :=
    system.wire.pending_deliverNext
  refine ⟨?_, ?_, ?_⟩
  · exact consistent.seats.trans system.wire.length_deliverNext.symm
  · intro node after present
    have bound : node < system.wire.stations.length := by
      rw [← system.wire.length_deliverNext]
      exact (List.getElem?_eq_some_iff.1 present).1
    have before := List.getElem?_eq_getElem bound
    obtain ⟨heard, heardAt, kept⟩ := Wire.keepsSetup_deliverNext consistent.buffers before
    have same : heard = after := Option.some.inj (heardAt.symm.trans present)
    subst same
    exact (consistent.fits node _ before).keep kept
  · intro transfer member
    rw [pending] at member
    exact consistent.buffers transfer (List.mem_of_mem_tail member)

theorem Confined.before {node : Nat} (confined : system.Confined node after) {other : Nat}
    (present : after.wire.stations[other]? = some changed) :
    ∃ station, system.wire.stations[other]? = some station := by
  have bound := (List.getElem?_eq_some_iff.1 present).1
  rw [confined.wire.length] at bound
  exact ⟨_, List.getElem?_eq_getElem bound⟩

theorem Consistent.step (consistent : system.Consistent) (action : Action) :
    (system.step action).2.Consistent := by
  cases about : action.node? with
  | some node =>
      have confined : system.Confined node (system.step action).2 := confined_step about
      refine consistent.confined confined ?_
      intro changed present
      obtain ⟨station, before⟩ := confined.before present
      obtain ⟨turned, right⟩ := consistent.turned about before
      rw [← Option.some.inj (right.present.symm.trans present)]
      exact right.fits
  | none =>
      cases action with
      | deliverNext => exact consistent.deliver
      | attach station clock bitRate =>
          refine (consistent.join station).confined (system.confined_attach station clock bitRate) ?_
          intro changed present
          obtain ⟨turned, right⟩ := consistent.turned_attach station clock bitRate
          rw [← Option.some.inj (right.present.symm.trans present)]
          exact right.fits
      | _ => cases about

theorem Consistent.run (consistent : system.Consistent) (actions : List Action) :
    (system.after actions).Consistent := by
  induction actions generalizing system with
  | nil => exact consistent
  | cons action rest ih => exact ih (consistent.step action)

structure Started (node : Nat) (frozen : Frozen) (plan : Plan) (running : Running)
    (before changed : Station) (system : System) : Prop where
  seat : system.seat node = .frozen frozen
  present : system.wire.stations[node]? = some before
  planned : frozen.settings.plan frozen.clock = .ok (.ok plan)
  handed : running = { clock := frozen.clock
                       settings := frozen.settings
                       transmitBuffer := plan.transmitBuffer
                       receiveBuffer := plan.receiveBuffer }
  applied : plan.Applied frozen.settings (plan.finalMcr frozen.settings before) before changed
  active : changed.Active running
  result : (system.step (.finalize node)).2 =
    hold ⟨system.wire.replace node (changed, system.wire.pending), system.seats⟩ node
      (.running running)

theorem Consistent.started (consistent : system.Consistent)
    (done : (system.step (.finalize node)).1 = .done) :
    ∃ frozen plan running before changed, Started node frozen plan running before changed system := by
  simp only [System.step] at done
  cases seat : system.seat node with
  | gone => simp only [seat] at done; cases done
  | running running => simp only [seat] at done; cases done
  | frozen frozen =>
      have held : system.seat node ≠ .gone := by rw [seat]; simp
      obtain ⟨before, present⟩ := consistent.present held
      have halted := consistent.fits node before present
      rw [seat] at halted
      simp only [seat, finalize, perform_eq present] at done
      cases planned : frozen.settings.plan frozen.clock with
      | error problem =>
          simp only [Frozen.start, planned, Program.run_done] at done
          cases done
      | ok outcome =>
          cases outcome with
          | error error =>
              simp only [Frozen.start, planned, Program.run_done] at done
              cases done
          | ok plan =>
              obtain ⟨changed, starting, applied⟩ :=
                Frozen.run_start node before system.wire.pending planned
              rw [starting] at done
              cases accepted : frozen.verdict plan (plan.finalMcr frozen.settings before) with
              | error error =>
                  rw [accepted] at done
                  cases done
              | ok running =>
                  refine ⟨frozen, plan, running, before, changed, seat, present, planned,
                    (Frozen.verdict_eq_ok_iff.mp accepted).2.2.2, applied,
                    Station.Halted.start halted (Settings.planned_of_ok planned) applied accepted, ?_⟩
                  simp only [System.step, seat, finalize, perform_eq present, starting, accepted]
                  rfl

theorem Started.placed {frozen : Frozen} {plan : Plan} {running : Running} {before : Station}
    (started : Started node frozen plan running before changed system) :
    (system.step (.finalize node)).2.wire.stations[node]? = some changed := by
  rw [started.result]
  exact system.wire.station_replace _ (List.getElem?_eq_some_iff.1 started.present).1

theorem Started.seated {frozen : Frozen} {plan : Plan} {running : Running} {before : Station}
    (started : Started node frozen plan running before changed system)
    (consistent : system.Consistent) :
    (system.step (.finalize node)).2.seat node = .running running := by
  have bound : node < system.wire.stations.length :=
    (List.getElem?_eq_some_iff.1 started.present).1
  rw [← consistent.seats] at bound
  have inside : node < (System.mk (system.wire.replace node (changed, system.wire.pending))
    system.seats).seats.length := bound
  rw [started.result, seat_hold inside, if_pos rfl]

end System

/-- A controller that is connected has a timer that counts 16 bits. -/
def Action.Calm : Action → Prop
  | .attach station _ _ => station.time < 65536
  | _ => True

namespace System

variable {system : System}

theorem Consistent.calm_deliver (consistent : system.Consistent) (calm : system.wire.Calm) :
    (system.step .deliverNext).2.wire.Calm := by
  intro changed member
  obtain ⟨other, present⟩ := List.mem_iff_getElem?.mp member
  cases waiting : system.wire.pending with
  | nil =>
      simp only [System.step, Wire.deliverNext_none waiting] at present
      exact calm changed (List.mem_of_getElem? present)
  | cons transfer rest =>
      simp only [System.step, Wire.deliverNext_eq waiting calm] at present
      split at present
      next =>
        obtain ⟨station, before, passed⟩ :=
          Option.map_eq_some_iff.mp (List.getElem?_mapIdx.symm.trans present)
        rw [← passed]
        exact Station.time_pass _ _ (calm station (List.mem_of_getElem? before))
          (consistent.buffers transfer (by simp [waiting]))
      next => exact calm changed (List.mem_of_getElem? present)

theorem Consistent.calm_attach (consistent : system.Consistent) (calm : system.wire.Calm)
    {station : Station} (fair : station.time < 65536) (clock : Clock) (bitRate : UInt32) :
    (system.attach station clock bitRate).2.wire.Calm := by
  intro changed member
  obtain ⟨other, present⟩ := List.mem_iff_getElem?.mp member
  have confined := system.confined_attach station clock bitRate
  by_cases own : other = system.wire.stations.length
  · subst own
    obtain ⟨turned, right⟩ := consistent.turned_attach station clock bitRate
    have same : turned = changed := Option.some.inj (right.present.symm.trans present)
    rw [← same, Station.time, right.spared.timer]
    exact fair
  · have joined : (system.join station).wire.stations[other]? = some changed :=
      (confined.wire.others other own).symm.trans present
    rcases List.mem_append.mp (List.mem_of_getElem? joined) with old | new
    · exact calm changed old
    · rw [List.mem_singleton.mp new]
      exact fair

theorem Consistent.calm_step (consistent : system.Consistent) (calm : system.wire.Calm)
    (action : Action) (fair : action.Calm) : (system.step action).2.wire.Calm := by
  cases about : action.node? with
  | some node =>
      intro changed member
      obtain ⟨other, present⟩ := List.mem_iff_getElem?.mp member
      have confined : system.Confined node (system.step action).2 := confined_step about
      obtain ⟨station, before⟩ := confined.before present
      by_cases own : other = node
      · subst own
        obtain ⟨turned, right⟩ := consistent.turned about before
        rw [← Option.some.inj (right.present.symm.trans present), Station.time, right.spared.timer]
        exact calm station (List.mem_of_getElem? before)
      · rw [confined.wire.others other own] at present
        exact calm changed (List.mem_of_getElem? present)
  | none =>
      cases action with
      | deliverNext => exact consistent.calm_deliver calm
      | attach station clock bitRate => exact consistent.calm_attach calm fair clock bitRate
      | _ => cases about

theorem Consistent.calm_run (consistent : system.Consistent) (calm : system.wire.Calm)
    (actions : List Action) (fair : ∀ action ∈ actions, action.Calm) :
    (system.after actions).wire.Calm := by
  induction actions generalizing system with
  | nil => exact calm
  | cons action rest ih =>
      exact ih (consistent.step action) (consistent.calm_step calm action (fair action (by simp)))
        fun later member => fair later (by simp [member])

theorem calm_after {actions : List Action} (fair : ∀ action ∈ actions, action.Calm) :
    (empty.after actions).wire.Calm :=
  consistent_empty.calm_run (by simp [empty, Wire.empty, Wire.Calm]) actions fair

end System

end BufferedCan
