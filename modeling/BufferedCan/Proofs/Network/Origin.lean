import BufferedCan.Proofs.Network.Consistency

/-! Where the controllers come from. Each goes back to the one that was connected, with the clock that was
given for it then, and whatever was called since has changed nothing in its timing registers but the
fields that are there to be programmed. -/

namespace BufferedCan

structure Origin where
  station : Station
  clock : Clock

def Action.origin? : Action → Option Origin
  | .attach station clock _ => some ⟨station, clock⟩
  | _ => none

theorem Action.origin?_of_node {action : Action} {node : Nat} (about : action.node? = some node) :
    action.origin? = none := by
  cases action with
  | attach => cases about
  | _ => rfl

namespace System

def origins (actions : List Action) : List Origin := actions.filterMap Action.origin?

/-- The controllers go back to these. -/
structure Descends (origins : List Origin) (system : System) : Prop where
  length : origins.length = system.wire.stations.length
  inherits : ∀ (node : Nat) (origin : Origin) (station : Station), origins[node]? = some origin →
    system.wire.stations[node]? = some station → origin.station.Inherits station
  clock : ∀ (node : Nat) (origin : Origin) (clock : Clock), origins[node]? = some origin →
    (system.seat node).clock? = some clock → clock = origin.clock

variable {system after : System} {known : List Origin} {node : Nat}

theorem descends_empty : Descends [] empty :=
  ⟨rfl, by simp, by simp⟩

theorem Descends.present (descends : Descends known system) {origin : Origin}
    (listed : known[node]? = some origin) : ∃ station, system.wire.stations[node]? = some station := by
  have bound := (List.getElem?_eq_some_iff.1 listed).1
  rw [descends.length] at bound
  exact ⟨_, List.getElem?_eq_getElem bound⟩

theorem Descends.confined (descends : Descends known system)
    (confined : system.Confined node after)
    (turned : ∀ station, system.wire.stations[node]? = some station →
      ∃ changed, Turned node (system.seat node).clock? station changed after) :
    Descends known after := by
  refine ⟨descends.length.trans confined.wire.length.symm, ?_, ?_⟩
  · intro other origin current listed found
    by_cases same : other = node
    · subst same
      obtain ⟨station, present⟩ := descends.present listed
      obtain ⟨changed, own⟩ := turned station present
      rw [← Option.some.inj (own.present.symm.trans found)]
      exact (descends.inherits other origin station listed present).trans own.spared.inherits
    · rw [confined.wire.others other same] at found
      exact descends.inherits other origin current listed found
  · intro other origin clock listed held
    by_cases same : other = node
    · subst same
      obtain ⟨station, present⟩ := descends.present listed
      obtain ⟨changed, own⟩ := turned station present
      exact descends.clock other origin clock listed (own.clock clock held)
    · rw [confined.others other same] at held
      exact descends.clock other origin clock listed held

theorem Descends.deliver (descends : Descends known system) (consistent : system.Consistent) :
    Descends known (system.step .deliverNext).2 := by
  refine ⟨descends.length.trans system.wire.length_deliverNext.symm, ?_, descends.clock⟩
  intro node origin current listed found
  have bound : node < system.wire.stations.length := by
    rw [← system.wire.length_deliverNext]
    exact (List.getElem?_eq_some_iff.1 found).1
  have before := List.getElem?_eq_getElem bound
  obtain ⟨heard, heardAt, kept⟩ := Wire.keepsSetup_deliverNext consistent.buffers before
  rw [← Option.some.inj (heardAt.symm.trans found)]
  exact (descends.inherits node origin _ listed before).trans kept.inherits

theorem Descends.attach (descends : Descends known system) (consistent : system.Consistent)
    (station : Station) (clock : Clock) (bitRate : UInt32) :
    Descends (known ++ [⟨station, clock⟩]) (system.attach station clock bitRate).2 := by
  have confined := system.confined_attach station clock bitRate
  obtain ⟨changed, turned⟩ := consistent.turned_attach station clock bitRate
  -- Whatever is listed apart from the new controller was listed before.
  have older {node : Nat} {origin : Origin} (apart : node ≠ system.wire.stations.length)
      (listed : (known ++ [⟨station, clock⟩])[node]? = some origin) :
      node < system.wire.stations.length ∧ known[node]? = some origin := by
    have bound := (List.getElem?_eq_some_iff.1 listed).1
    rw [List.length_append, List.length_singleton, descends.length] at bound
    have old : node < system.wire.stations.length := by omega
    rw [← descends.length] at old
    rw [List.getElem?_append_left old] at listed
    exact ⟨by rwa [descends.length] at old, listed⟩
  have newest : (known ++ [⟨station, clock⟩])[system.wire.stations.length]? =
      some ⟨station, clock⟩ := by
    rw [← descends.length]
    exact List.getElem?_concat_length
  refine ⟨?_, ?_, ?_⟩
  · rw [confined.wire.length]
    simp [System.join, descends.length]
  · intro node origin current listed found
    by_cases own : node = system.wire.stations.length
    · subst own
      rw [← Option.some.inj (turned.present.symm.trans found),
        ← Option.some.inj (newest.symm.trans listed)]
      exact turned.spared.inherits
    · obtain ⟨old, listed⟩ := older own listed
      rw [confined.wire.others node own, join_station station old] at found
      exact descends.inherits node origin current listed found
  · intro node origin held listed given
    by_cases own : node = system.wire.stations.length
    · subst own
      rw [← Option.some.inj (newest.symm.trans listed)]
      exact (Option.some.inj (turned.clock held given)).symm
    · obtain ⟨old, listed⟩ := older own listed
      rw [confined.others node own, join_seat station (by rwa [consistent.seats])] at given
      exact descends.clock node origin held listed given

theorem Descends.step (descends : Descends known system) (consistent : system.Consistent)
    (action : Action) : Descends (known ++ action.origin?.toList) (system.step action).2 := by
  cases about : action.node? with
  | some node =>
      rw [action.origin?_of_node about, Option.toList_none, List.append_nil]
      exact descends.confined (confined_step about) fun _ => consistent.turned about
  | none =>
      cases action with
      | attach station clock bitRate => exact descends.attach consistent station clock bitRate
      | deliverNext =>
          have nobody : Action.deliverNext.origin? = none := rfl
          rw [nobody, Option.toList_none, List.append_nil]
          exact descends.deliver consistent
      | _ => cases about

theorem Descends.run (descends : Descends known system) (consistent : system.Consistent)
    (actions : List Action) : Descends (known ++ origins actions) (system.after actions) := by
  induction actions generalizing known system with
  | nil =>
      rw [origins, List.filterMap_nil, List.append_nil]
      exact descends
  | cons action rest ih =>
      have later := ih (descends.step consistent action) (consistent.step action)
      rw [List.append_assoc] at later
      have listed : action.origin?.toList ++ origins rest = origins (action :: rest) := by
        cases found : action.origin? <;> simp [origins, found]
      rw [← listed]
      exact later

theorem settings_of_adjust {settings : Settings} {frozen : Frozen}
    (seat : (system.step (.adjust node settings)).2.seat node = .frozen frozen) :
    frozen.settings = settings := by
  simp only [System.step] at seat
  split at seat
  next held before =>
    have bound : node < system.seats.length := by
      refine Decidable.byContradiction fun outside => ?_
      rw [System.seat, List.getD_eq_getElem?_getD, List.getElem?_eq_none (Nat.not_lt.mp outside)]
        at before
      cases before
    rw [seat_hold bound, if_pos rfl] at seat
    cases seat
    rfl
  next held => exact absurd seat (held frozen)

/-- After a finalization that was answered as done, the registers time bits as the settings say: the
controller gets from its clock exactly the bit rates that were asked for. It still runs from the clock
that was given for it, and outside the fields of the mode no bit of the timing registers has changed. -/
theorem timed_after_finalize (before : List Action) (node : Nat)
    (done : ((empty.after before).step (.finalize node)).1 = .done) :
    ∃ origin frozen station changed,
      let system := empty.after before
      let start := (system.step (.finalize node)).2
      (origins before)[node]? = some origin ∧
      system.seat node = .frozen frozen ∧
      system.wire.stations[node]? = some station ∧
      start.wire.stations[node]? = some changed ∧
      changed.Timed frozen.settings origin.clock ∧
      Ctrl1.lpb.isSet (changed.memory.get .ctrl1) = frozen.settings.loopback ∧
      Ctrl1.clksrc.isSet (changed.memory.get .ctrl1) = (origin.clock.source == .peripheral) ∧
      station.KeepsOutside (Register.programmed frozen.settings.mode.isFd) changed ∧
      origin.station.Inherits changed := by
  have consistent := consistent_empty.run before
  have descends := descends_empty.run consistent_empty before
  obtain ⟨frozen, plan, running, station, changed, started⟩ := consistent.started done
  have bound := (List.getElem?_eq_some_iff.1 started.present).1
  rw [← descends.length] at bound
  have listed := List.getElem?_eq_getElem bound
  have clock := descends.clock node _ frozen.clock listed (by rw [started.seat]; rfl)
  have planned := Settings.planned_of_ok started.planned
  have active := started.active
  rw [started.handed] at active
  refine ⟨_, frozen, station, changed, listed, started.seat, started.present, started.placed, ?_,
    active.serves.loopback, ?_, Station.keepsOutside_of_applied planned started.applied, ?_⟩
  · rw [← clock]
    exact Station.timed_of_applied planned started.applied
  · rw [← clock]
    exact active.clock
  · exact (descends.inherits node _ station listed started.present).trans
      (Station.inherits_of_applied planned started.applied)

def switching : Settings where
  nominal := { bitRate := 500000 }
  mode := .flexible
    { allowSwitching := true
      dataTiming := { bitRate := 2000000, propagation := 7, phase1 := 8, phase2 := 4 }
      dataSize := .bytes64
      delayOffset := some 5 }

/-- A node runs in classic mode and is about to be set up again with those settings. -/
def upgrade : List Action :=
  [.attach .reset .peripheral 500000, .finalize 0, .configure 0, .adjust 0 switching]

theorem upgrade_done : ((empty.after upgrade).step (.finalize 0)).1 = .done := by
  decide +kernel

theorem upgrade_timed :
    ((empty.after upgrade).step (.finalize 0)).1 = .done ∧
      ∃ changed, ((empty.after upgrade).step (.finalize 0)).2.wire.stations[0]? = some changed ∧
        changed.Timed switching .peripheral ∧ Station.reset.Inherits changed := by
  refine ⟨upgrade_done, ?_⟩
  obtain ⟨origin, frozen, station, changed, listed, seat, -, present, timed, -, -, -, inherits⟩ :=
    timed_after_finalize upgrade 0 upgrade_done
  have connected : { station := .reset, clock := .peripheral } = origin := Option.some.inj listed
  have last : upgrade = upgrade.take 3 ++ [.adjust 0 switching] := rfl
  rw [last, after_append, after_singleton] at seat
  rw [← connected, settings_of_adjust seat] at timed
  rw [← connected] at inherits
  exact ⟨changed, present, timed, inherits⟩

end System

end BufferedCan
