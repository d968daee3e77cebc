import BufferedCan.Proofs.Network.Ownership

/-! A wire on which nobody sends. Nothing ever waits there, and a controller that comes fresh from its reset
is as good as new by the time its software begins, however often it was set up. -/

namespace BufferedCan

namespace Action

/-- Nobody sends, and controllers are connected in their reset state. -/
def Silent : Action → Prop
  | .attach station _ _ => station = .reset
  | .transmit .. | .send .. => False
  | _ => True

theorem Silent.calm {action : Action} (silent : action.Silent) : action.Calm := by
  cases action with
  | attach station clock bitRate =>
      have fresh : station = .reset := silent
      rw [Action.Calm, fresh, Station.time_reset]
      decide
  | _ => trivial

end Action

namespace Station

/-- The controller of a node that has neither sent nor heard anything. If it no longer answers, it may
have been left anywhere on the way into service or out of it. -/
inductive Fresh (station : Station) : Seat → Prop
  | gone : Fresh station .gone
  | frozen {frozen : Frozen} (parked : station.stalled = false → station.Parked) :
      Fresh station (.frozen frozen)
  | running {running : Running} {member : Member} (hosts : station.Hosts running member false)
      (flags : station.memory.get .iflag1 = 0) (time : member.time = 0) :
      Fresh station (.running running)

variable {station : Station} {running : Running} {member : Member} {busy : Bool}

theorem Hosts.slot_of_flags (hosts : station.Hosts running member busy)
    (flags : station.memory.get .iflag1 = 0) : member.slot = none := by
  have flag := hosts.slot.flag
  rw [flags] at flag
  rw [← Option.not_isSome_iff_eq_none, ← flag, Bool.not_eq_true]
  exact Nat.zero_testBit _

theorem Hosts.parked (hosts : station.Hosts running member busy) {clock : Clock}
    (halted : (station.setRegister .mcr station.frozenWord).Halted clock)
    (responsive : station.stalled = false) (flags : station.memory.get .iflag1 = 0)
    (time : member.time = 0) : (station.setRegister .mcr station.frozenWord).Parked where
  responsive := responsive
  awake := halted.awake
  silent := by simp only [Station.running, halted.asks, Bool.not_true, Bool.and_false]
  hears := by
    rw [get_setRegister, if_pos rfl, Field.isSet, frozenWord, get_answer _ {}, Mcr.freezing,
      Field.get_put_of_disjoint (by decide), Field.get_put_of_disjoint (by decide)]
    exact hosts.hears
  time := by
    rw [Station.time, get_setRegister, if_neg (by decide)]
    exact hosts.time.trans time
  flags := by rw [get_setRegister, if_neg (by decide), flags]
  status := by rw [get_setRegister, if_neg (by decide), hosts.status]
  counters := by rw [get_setRegister, if_neg (by decide), hosts.counters]

theorem Fresh.stall {seat : Seat} (fresh : station.Fresh seat) : station.stall.Fresh seat := by
  cases fresh with
  | gone => exact .gone
  | frozen parked => exact .frozen fun answers => absurd answers (by simp [Station.stall])
  | @running running member hosts flags time =>
      have serves := hosts.serves
      have listens := hosts.listens
      have flag := hosts.slot.flag
      rw [hosts.slot_of_flags flags, Option.isSome_none] at flag
      have next : station.stall.Hosts running { member with slot := none } false :=
        ⟨hosts.sound, hosts.settings, ⟨serves.running, serves.fd, serves.layout, serves.active,
          serves.loopback, serves.mask⟩, hosts.hears, ⟨listens.receives, listens.standard,
          listens.ident, listens.alone⟩, hosts.waiting, hosts.idle, .empty flag, hosts.time,
          hosts.small, hosts.status, hosts.counters⟩
      exact .running next flags time

end Station

namespace System

structure Rests (system : System) (node : Nat) : Prop where
  consistent : system.Consistent
  idle : system.wire.pending = []
  fresh : ∀ station, system.wire.stations[node]? = some station →
    station.Fresh (system.seat node)

variable {system : System} {node : Nat} {action : Action}

theorem wire_settle (system : System) (node : Nat) (outcome : Except SetupError Seat) :
    (system.settle node outcome).2.wire = system.wire := by
  cases outcome <;> rfl

theorem pending_attach (system : System) (station : Station) (clock : Clock) (bitRate : UInt32) :
    (system.attach station clock bitRate).2.wire.pending = system.wire.pending := by
  simp only [attach, perform_eq (system.join_present station), wire_settle]
  cases answers : station.stalled with
  | true =>
      obtain ⟨error, after, ran, -⟩ := run_attach_of_stalled system.wire.stations.length station
        (system.join station).wire.pending clock bitRate answers
      rw [ran]
      rfl
  | false =>
      rw [run_attach _ _ _ _ _ answers]
      rfl

theorem pending_finalize {station : Station} (frozen : Frozen)
    (present : system.wire.stations[node]? = some station) :
    (system.finalize node frozen).2.wire.pending = system.wire.pending := by
  simp only [finalize, perform_eq present]
  cases found : frozen.settings.plan frozen.clock with
  | error problem => simp only [Frozen.start, found, Program.run_done]; rfl
  | ok outcome =>
      cases outcome with
      | error error => simp only [Frozen.start, found, Program.run_done]; rfl
      | ok plan =>
          obtain ⟨after, starting, -⟩ := Frozen.run_start node station system.wire.pending found
          simp only [starting, wire_settle]
          rfl

theorem Consistent.pending_call {α : Type} (consistent : system.Consistent)
    (answer : α → Reply Message) (program : Running → Program registers α)
    (quiet : ∀ running station waiting,
      ((program running).run (Station.device node) (station, waiting)).2.2 = waiting) :
    (system.call node answer program).2.wire.pending = system.wire.pending := by
  unfold call
  split
  next running seat =>
    have held : system.seat node ≠ .gone := by simp [seat]
    obtain ⟨station, present⟩ := consistent.present held
    simp only [perform_eq present]
    exact quiet running station system.wire.pending
  next => rfl

theorem Consistent.idle_step (consistent : system.Consistent) (idle : system.wire.pending = [])
    (silent : action.Silent) : (system.step action).2.wire.pending = [] := by
  cases action with
  | attach station clock bitRate => exact (system.pending_attach station clock bitRate).trans idle
  | adjust own settings =>
      simp only [System.step]
      split <;> exact idle
  | finalize own =>
      simp only [System.step]
      split
      next frozen seat =>
        have held : system.seat own ≠ .gone := by simp [seat]
        obtain ⟨station, present⟩ := consistent.present held
        exact (pending_finalize frozen present).trans idle
      next => exact idle
  | configure own =>
      simp only [System.step]
      split
      next running seat =>
        have held : system.seat own ≠ .gone := by simp [seat]
        obtain ⟨station, present⟩ := consistent.present held
        simp only [configure, perform_eq present, run_freeze, wire_settle]
        exact idle
      next => exact idle
  | transmit own draft => exact silent.elim
  | send own id payload => exact silent.elim
  | receive own =>
      refine (consistent.pending_call .ofReceive Running.receive ?_).trans idle
      intro running station waiting
      rw [Running.run_receive]
      split <;> rfl
  | status own =>
      refine (consistent.pending_call .ofStatus (fun _ => Running.statuses) ?_).trans idle
      intro _ station waiting
      rw [Running.run_statuses]
  | timeStamp own =>
      refine (consistent.pending_call .time (fun _ => Running.timeStamp) ?_).trans idle
      intro _ station waiting
      rw [Running.run_timeStamp]
  | deliverNext => simp only [System.step, Wire.deliverNext_none idle, idle]
  | stall own => exact idle

theorem Rests.others (rests : system.Rests node) {other : Nat} (apart : node ≠ other)
    (about : action.node? = some other) {station : Station}
    (present : (system.step action).2.wire.stations[node]? = some station) :
    station.Fresh ((system.step action).2.seat node) := by
  have confined : system.Confined other (system.step action).2 := confined_step about
  rw [confined.wire.others node apart] at present
  rw [confined.others node apart]
  exact rests.fresh station present

theorem Rests.attach (rests : system.Rests node) (clock : Clock) (bitRate : UInt32)
    {station : Station}
    (present : (system.attach .reset clock bitRate).2.wire.stations[node]? = some station) :
    station.Fresh ((system.attach .reset clock bitRate).2.seat node) := by
  have confined := system.confined_attach .reset clock bitRate
  have seats := rests.consistent.seats
  by_cases last : node = system.wire.stations.length
  · subst last
    have bound : system.wire.stations.length < (system.join .reset).seats.length := by
      simp [System.join, seats]
    simp only [System.attach, perform_eq (system.join_present .reset),
      run_attach system.wire.stations.length .reset _ clock bitRate rfl] at present ⊢
    simp only [settle, Except.map] at present ⊢
    rw [seat_hold (by exact bound), if_pos rfl]
    have placed := (system.join .reset).wire.station_replace
      (Station.reset.taken clock, (system.join .reset).wire.pending)
      (List.getElem?_eq_some_iff.1 (system.join_present .reset)).1
    have same : station = Station.reset.taken clock := Option.some.inj (present.symm.trans placed)
    rw [same]
    exact .frozen fun _ => Station.parked_taken clock
  · rw [confined.wire.others node last] at present
    rw [confined.others node last]
    by_cases old : node < system.wire.stations.length
    · rw [join_station .reset old] at present
      rw [join_seat .reset (by omega)]
      exact rests.fresh station present
    · have bound := (List.getElem?_eq_some_iff.1 present).1
      simp only [System.join, List.length_append, List.length_singleton] at bound
      omega

theorem Rests.held (rests : system.Rests node) {before changed station : Station} {seat : Seat}
    (present : system.wire.stations[node]? = some before) (fresh : changed.Fresh seat)
    (found : (hold ⟨system.wire.replace node (changed, system.wire.pending), system.seats⟩ node
      seat).wire.stations[node]? = some station) :
    station.Fresh ((hold ⟨system.wire.replace node (changed, system.wire.pending), system.seats⟩
      node seat).seat node) := by
  have bound := (List.getElem?_eq_some_iff.1 present).1
  have placed := system.wire.station_replace (changed, system.wire.pending) bound
  have same : station = changed := Option.some.inj (found.symm.trans placed)
  rw [← rests.consistent.seats] at bound
  rw [seat_hold (by exact bound), if_pos rfl, same]
  exact fresh

theorem Rests.finalize (rests : system.Rests node) {before station : Station} {frozen : Frozen}
    (beforeAt : system.wire.stations[node]? = some before) (seat : system.seat node = .frozen frozen)
    (present : (system.finalize node frozen).2.wire.stations[node]? = some station) :
    station.Fresh ((system.finalize node frozen).2.seat node) := by
  have fresh := rests.fresh before beforeAt
  have halted := rests.consistent.fits node before beforeAt
  rw [seat] at fresh halted
  simp only [System.finalize, perform_eq beforeAt] at present ⊢
  cases found : frozen.settings.plan frozen.clock with
  | error problem =>
      simp only [Frozen.start, found, Program.run_done] at present ⊢
      exact rests.held beforeAt .gone present
  | ok outcome =>
      cases outcome with
      | error error =>
          simp only [Frozen.start, found, Program.run_done] at present ⊢
          exact rests.held beforeAt .gone present
      | ok plan =>
          by_cases answers : before.stalled = false
          · cases fresh with
            | frozen parked =>
                obtain ⟨after, flags, -, starting⟩ :=
                  (parked answers).start node system.wire.pending found
                split at starting
                next =>
                  simp only [starting] at present ⊢
                  exact rests.held beforeAt .gone present
                next =>
                  obtain ⟨running, started, hosts⟩ := starting
                  simp only [started] at present ⊢
                  exact rests.held beforeAt (.running hosts flags rfl) present
          · obtain ⟨after, starting, -⟩ := Frozen.run_start node before system.wire.pending found
            cases accepted : frozen.verdict plan (plan.finalMcr frozen.settings before) with
            | error error =>
                simp only [starting, accepted] at present ⊢
                exact rests.held beforeAt .gone present
            | ok running => exact absurd (Station.Halted.responsive halted accepted) answers

theorem Rests.call {α : Type} (rests : system.Rests node) {before station : Station}
    (beforeAt : system.wire.stations[node]? = some before) (answer : α → Reply Message)
    (program : Running → Program registers α)
    (keeps : ∀ running, before.Fresh (.running running) → Station.Fresh
      ((program running).run (Station.device node) (before, system.wire.pending)).2.1
        (.running running))
    (present : (system.call node answer program).2.wire.stations[node]? = some station) :
    station.Fresh ((system.call node answer program).2.seat node) := by
  have bound := (List.getElem?_eq_some_iff.1 beforeAt).1
  have fresh := rests.fresh before beforeAt
  have stays (same : (system.call node answer program).2 = system) :
      station.Fresh ((system.call node answer program).2.seat node) := by
    rw [same] at present ⊢
    exact rests.fresh station present
  cases seat : system.seat node with
  | gone => exact stays (by simp only [System.call, seat])
  | frozen frozen => exact stays (by simp only [System.call, seat])
  | running running =>
      rw [seat] at fresh
      simp only [System.call, seat, perform_eq beforeAt] at present ⊢
      rw [system.wire.station_replace _ bound, Option.some.injEq] at present
      rw [← present]
      change Station.Fresh _ (system.seat node)
      rw [seat]
      exact keeps running fresh

theorem Rests.configure (rests : system.Rests node) {before station : Station} {running : Running}
    (beforeAt : system.wire.stations[node]? = some before) (seat : system.seat node = .running running)
    (present : (system.configure node running).2.wire.stations[node]? = some station) :
    station.Fresh ((system.configure node running).2.seat node) := by
  have fresh := rests.fresh before beforeAt
  have active := rests.consistent.fits node before beforeAt
  rw [seat] at fresh active
  simp only [System.configure, perform_eq beforeAt, run_freeze] at present ⊢
  split at present
  next reached =>
    rw [if_pos reached]
    cases fresh with
    | running hosts flags time =>
        have halted := Station.Active.freeze active reached.2
        exact rests.held beforeAt (.frozen fun answers => hosts.parked halted answers flags time)
          present
  next lost =>
    rw [if_neg lost]
    exact rests.held beforeAt .gone present

theorem Rests.own (rests : system.Rests node) (about : action.node? = some node)
    (silent : action.Silent) {station : Station}
    (present : (system.step action).2.wire.stations[node]? = some station) :
    station.Fresh ((system.step action).2.seat node) := by
  have confined : system.Confined node (system.step action).2 := confined_step about
  obtain ⟨before, beforeAt⟩ := confined.before present
  cases action with
  | attach => cases about
  | deliverNext => cases about
  | transmit own draft => exact silent.elim
  | send own id payload => exact silent.elim
  | configure own =>
      cases about
      simp only [System.step] at present ⊢
      split at present
      next running seat => exact rests.configure beforeAt seat present
      next => exact rests.fresh station present
  | stall own =>
      cases about
      simp only [System.step, Wire.stall, Wire.modify, List.getElem?_modify_eq, beforeAt] at present
      rw [← Option.some.inj present]
      exact (rests.fresh before beforeAt).stall
  | adjust own settings =>
      cases about
      have fresh := rests.fresh before beforeAt
      simp only [System.step] at present ⊢
      split at present
      next frozen seat =>
        rw [seat] at fresh
        cases fresh with
        | frozen parked =>
            have next : before.Fresh (.frozen { frozen with settings := settings }) := .frozen parked
            have same : system.hold node (.frozen { frozen with settings := settings }) =
                hold ⟨system.wire.replace node (before, system.wire.pending), system.seats⟩ node
                  (.frozen { frozen with settings := settings }) := by
              rw [Wire.replace_self beforeAt]
            dsimp only at present ⊢
            rw [same] at present ⊢
            exact rests.held beforeAt next present
      next => exact rests.fresh station present
  | finalize own =>
      cases about
      simp only [System.step] at present ⊢
      split at present
      next frozen seat => exact rests.finalize beforeAt seat present
      next => exact rests.fresh station present
  | receive own =>
      cases about
      refine rests.call beforeAt .ofReceive Running.receive ?_ present
      intro running fresh
      cases fresh with
      | running hosts flags time =>
          have flag := hosts.slot.flag
          rw [hosts.slot_of_flags flags, Option.isSome_none] at flag
          rw [Running.run_receive, flag, if_neg (by simp)]
          exact .running hosts flags time
  | status own =>
      cases about
      refine rests.call beforeAt .ofStatus (fun _ => Running.statuses) ?_ present
      intro running fresh
      rw [Running.run_statuses]
      exact fresh
  | timeStamp own =>
      cases about
      refine rests.call beforeAt .time (fun _ => Running.timeStamp) ?_ present
      intro running fresh
      rw [Running.run_timeStamp]
      cases fresh with
      | running hosts flags time => exact .running (hosts.readTimer _) flags time

theorem Rests.step (rests : system.Rests node) (silent : action.Silent) :
    (system.step action).2.Rests node := by
  refine ⟨rests.consistent.step action, rests.consistent.idle_step rests.idle silent, ?_⟩
  intro station present
  cases about : action.node? with
  | some other =>
      by_cases own : other = node
      · subst own
        exact rests.own about silent present
      · exact rests.others (Ne.symm own) about present
  | none =>
      cases action with
      | attach first clock bitRate =>
          have reset : first = .reset := silent
          subst reset
          exact rests.attach clock bitRate present
      | deliverNext =>
          simp only [System.step, Wire.deliverNext_none rests.idle] at present
          exact rests.fresh station present
      | _ => cases about

theorem rests_empty (node : Nat) : empty.Rests node :=
  ⟨consistent_empty, rfl, by simp [empty, Wire.empty]⟩

theorem Rests.run (rests : system.Rests node) (actions : List Action)
    (silent : ∀ action ∈ actions, action.Silent) : (system.after actions).Rests node := by
  induction actions generalizing system with
  | nil => exact rests
  | cons action rest ih =>
      exact ih (rests.step (silent action (by simp)))
        fun later member => silent later (by simp [member])

theorem calm_silent {before : List Action} (silent : ∀ action ∈ before, action.Silent) :
    (empty.after before).wire.Calm :=
  calm_after fun action member => (silent action member).calm

end System

/-! The nodes in service make a network in which nothing has happened yet. The others can be left out of it,
even those that no longer answer. -/

def Seat.serving : Seat → Seat
  | .running held => .running held
  | _ => .gone

def Seat.idleNode : Seat → Node
  | .running held => .running { settings := held.settings, slot := none, time := 0 }
  | _ => .gone

theorem Station.Fresh.plays {station : Station} {seat : Seat} (fresh : station.Fresh seat) :
    station.Plays false seat.serving seat.idleNode := by
  cases fresh with
  | gone => exact .gone
  | frozen parked => exact .gone
  | @running running member hosts flags time =>
      have same : member = { settings := running.settings, slot := none, time := 0 } := by
        rw [← hosts.settings, ← hosts.slot_of_flags flags, ← time]
      rw [same] at hosts
      exact .running hosts

theorem System.seat_serving (system : System) (wire : Wire) (number : Nat) :
    (System.mk wire (system.seats.map Seat.serving)).seat number = (system.seat number).serving := by
  simp only [seat, List.getD_eq_getElem?_getD, List.getElem?_map]
  cases system.seats[number]? <;> rfl

theorem System.node_idleNode (system : System) (queue : List Frame) (number : Nat) :
    (Network.mk queue (system.seats.map Seat.idleNode)).node number =
      (system.seat number).idleNode := by
  simp only [Network.node, seat, List.getD_eq_getElem?_getD, List.getElem?_map]
  cases system.seats[number]? <;> rfl

theorem System.represents_silent {before : List Action}
    (silent : ∀ action ∈ before, action.Silent) :
    System.Represents
      ⟨(empty.after before).wire, (empty.after before).seats.map Seat.serving⟩
      ⟨[], (empty.after before).seats.map Seat.idleNode⟩ := by
  have rests (node : Nat) := (rests_empty node).run before silent
  have seats := (rests 0).consistent.seats
  refine ⟨?_, ?_, ?_, calm_silent silent, ?_, List.nodup_nil⟩
  · rw [List.length_map, seats]
  · rw [List.length_map, seats]
  · intro number station present
    rw [seat_serving, node_idleNode]
    exact ((rests number).fresh station present).plays
  · rw [(rests 0).idle]
    exact .nil

end BufferedCan
