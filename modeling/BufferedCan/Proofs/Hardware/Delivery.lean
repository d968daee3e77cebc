import BufferedCan.Proofs.Hardware.Mailbox

/-! What a delivery does to a controller: it may hear the transfer, and the sender completes it. A
transfer is stored in the first receive buffer that takes it; where only one buffer receives at all,
that is the one or none. -/

namespace BufferedCan

namespace BufferCode

def receives (code : BufferCode) : Bool := [rxEmpty, rxFull, rxOverrun].contains code

theorem receives_eq (code : BufferCode) :
    code.receives = ([rxEmpty].contains code || [rxFull, rxOverrun].contains code) := by
  simp [receives]

end BufferCode

namespace Station

def passes (station : Station) (transfer : Transfer) (buffer : Nat) : Bool :=
  MbCs.ide.isSet (station.control buffer) == MbCs.ide.isSet transfer.control &&
    (station.ident buffer ^^^ transfer.ident) &&&
      (station.memory.get .rxMgMask &&& 0x1FFFFFFF) == 0

theorem accepts_eq (station : Station) (transfer : Transfer) (codes : List BufferCode)
    (buffer : Nat) :
    station.accepts transfer codes buffer =
      (codes.contains (station.code buffer) && station.passes transfer buffer) := by
  simp only [accepts, passes, code, Bool.and_assoc]

theorem find?_range_of_only {keep : Nat → Bool} {count only : Nat} (bound : only < count)
    (others : ∀ other < count, other ≠ only → keep other = false) :
    (List.range count).find? keep = if keep only then some only else none := by
  split
  next kept =>
    rw [List.find?_range_eq_some]
    refine ⟨kept, List.mem_range.mpr bound, ?_⟩
    intro earlier below
    simp [others earlier (by omega) (by omega)]
  next dropped =>
    rw [List.find?_range_eq_none]
    intro other otherBound
    by_cases same : other = only
    · simpa [same] using dropped
    · simp [others other otherBound same]

theorem target?_bound {station : Station} {transfer : Transfer} {buffer : Nat}
    (found : station.target? transfer = some buffer) : buffer < station.layout.bufferCount := by
  have active : buffer < station.activeBuffers := by
    simp only [target?, Option.orElse_eq_orElse, Option.orElse_eq_or, Option.or_eq_some_iff]
      at found
    rcases found with found | ⟨_, found⟩
    · exact List.mem_range.mp (List.mem_of_find?_eq_some found)
    · exact List.mem_range.mp (List.mem_of_find?_eq_some found)
  exact Nat.lt_of_lt_of_le active (Nat.min_le_left _ _)

theorem target?_of_only {station : Station} {buffer : Nat} (transfer : Transfer)
    (bound : buffer < station.activeBuffers)
    (others : ∀ other < station.activeBuffers, other ≠ buffer →
      (station.code other).receives = false) :
    station.target? transfer =
      if (station.code buffer).receives && station.passes transfer buffer then some buffer
      else none := by
  have silent (codes : List BufferCode) (within : ∀ code ∈ codes, code.receives = true) :
      ∀ other < station.activeBuffers, other ≠ buffer →
        station.accepts transfer codes other = false := by
    intro other otherBound apart
    have quiet := others other otherBound apart
    have absent : codes.contains (station.code other) = false := by
      rw [← Bool.not_eq_true, List.contains_iff_mem]
      intro member
      rw [within _ member] at quiet
      exact absurd quiet (by decide)
    rw [accepts_eq, absent, Bool.false_and]
  have empty := find?_range_of_only bound (silent [.rxEmpty] (by decide))
  have full := find?_range_of_only bound (silent [.rxFull, .rxOverrun] (by decide))
  unfold target?
  dsimp only
  rw [empty, full, accepts_eq, accepts_eq, BufferCode.receives_eq]
  cases [BufferCode.rxEmpty].contains (station.code buffer) <;>
    cases [BufferCode.rxFull, BufferCode.rxOverrun].contains (station.code buffer) <;>
    cases station.passes transfer buffer <;> rfl

theorem hear_cases (station : Station) (transfer : Transfer) :
    (station.hear transfer).2 = station ∨ (station.hear transfer).2 = station.tick.2 ∨
      ∃ buffer, buffer < station.layout.bufferCount ∧
        (station.hear transfer).2 = (station.fill transfer buffer).tick.2 := by
  unfold hear
  split
  · cases found : station.target? transfer with
    | none => exact Or.inr (Or.inl rfl)
    | some buffer => exact Or.inr (Or.inr ⟨buffer, target?_bound found, rfl⟩)
  · exact Or.inl rfl

theorem keepsSetup_hear (station : Station) (transfer : Transfer) :
    station.KeepsSetup (station.hear transfer).2 := by
  rcases station.hear_cases transfer with same | ticked | ⟨buffer, bound, filled⟩
  · rw [same]
    exact KeepsSetup.refl station
  · rw [ticked]
    exact station.keepsSetup_tick
  · rw [filled]
    exact (station.keepsSetup_fill transfer bound).trans (keepsSetup_tick _)

theorem get_reset (register : Register) :
    reset.memory.get register =
      match register with
      | .mcr => 0xD890000F
      | .ctrl2 => 0x00B00000
      | .fdCtrl => 0x80000100
      | _ => 0 := by
  have zero (other : Register) : Memory.zero.get other = 0 := by
    simp only [Memory.get, Memory.read, Memory.zero, Vector.getElem?_replicate]
    split <;> rfl
  cases register <;> simp [reset, Memory.get_put, zero]

def time (station : Station) : Nat := (station.memory.get .timer).toNat

theorem time_reset : reset.time = 0 := by
  rw [time, get_reset]
  rfl

theorem tick_eq {station : Station} (small : station.time < 65536) :
    station.tick = (.ok (), { station with
      memory := station.memory.put .timer ((station.memory.get .timer + 1) &&& 0xFFFF) }) := by
  have below : station.memory.get .timer ≠ 0xFFFFFFFF := by
    intro last
    simp [time, last] at small
  simp only [tick, below, if_false]

theorem time_tick {station : Station} (small : station.time < 65536) :
    station.tick.2.time = (station.time + 1) % 65536 := by
  have next : (0xFFFF : UInt32).toNat = 2 ^ 16 - 1 := by decide
  have one : (1 : UInt32).toNat = 1 := by decide
  simp only [time] at small
  rw [tick_eq small, time, Memory.get_put_self, UInt32.toNat_and, next,
    Nat.and_two_pow_sub_one_eq_mod, UInt32.toNat_add, one, time]
  omega

theorem time_fill (station : Station) (transfer : Transfer) {buffer : Nat}
    (bound : buffer < station.layout.bufferCount) :
    (station.fill transfer buffer).time = station.time := by
  rw [time, station.get_fill transfer bound (by decide), time]

theorem time_complete (station : Station) {buffer : Nat} (bound : buffer < 32) :
    (station.complete buffer).time = station.time := by
  rw [time, station.get_complete bound (by decide), time]

theorem hear_calm {station : Station} (transfer : Transfer) (small : station.time < 65536) :
    (station.hear transfer).1 = .ok () ∧
      (station.hear transfer).2.time =
        if station.follows transfer then (station.time + 1) % 65536 else station.time := by
  unfold hear
  split
  · cases found : station.target? transfer with
    | none => exact ⟨by simp only [tick_eq small], time_tick small⟩
    | some buffer =>
        have same := station.time_fill transfer (target?_bound found)
        have filled : (station.fill transfer buffer).time < 65536 := by rw [same]; exact small
        exact ⟨by simp only [tick_eq filled], by rw [← same]; exact time_tick filled⟩
  · exact ⟨rfl, rfl⟩

def pass (transfer : Transfer) (loopback : Bool) (place : Nat) (station : Station) : Station :=
  let heard := if Wire.reaches loopback (place == transfer.sender) station then
    (station.hear transfer).2 else station
  if place = transfer.sender then heard.complete transfer.buffer else heard

theorem time_pass {transfer : Transfer} {station : Station} (loopback : Bool) (place : Nat)
    (small : station.time < 65536) (bound : transfer.buffer < 32) :
    (station.pass transfer loopback place).time < 65536 := by
  have heard : (if Wire.reaches loopback (place == transfer.sender) station then
      (station.hear transfer).2 else station).time < 65536 := by
    split
    · rw [(station.hear_calm transfer small).2]
      split
      · exact Nat.mod_lt _ (by decide)
      · exact small
    · exact small
  unfold Station.pass
  simp only
  split
  · rw [time_complete _ bound]
    exact heard
  · exact heard

end Station

namespace Wire

def Calm (wire : Wire) : Prop := ∀ station ∈ wire.stations, station.time < 65536

theorem broadcast_eq (transfer : Transfer) (loopback : Bool) (index : Nat)
    (stations : List Station) (calm : ∀ station ∈ stations, station.time < 65536) :
    broadcast transfer loopback index stations =
      (.ok (), stations.mapIdx fun place station =>
        if reaches loopback (index + place == transfer.sender) station then
          (station.hear transfer).2 else station) := by
  induction stations generalizing index with
  | nil => rfl
  | cons station rest ih =>
      have heard := (Station.hear_calm transfer (calm station (by simp))).1
      have others := ih (index + 1) fun other member => calm other (by simp [member])
      have shift : ∀ place, index + 1 + place = index + (place + 1) := by
        intro place
        omega
      simp only [shift] at others
      simp only [broadcast, others, List.mapIdx_cons, Nat.add_zero]
      split
      · cases outcome : station.hear transfer with
        | mk result after =>
            rw [outcome] at heard
            simp only at heard
            simp [heard]
      · rfl

def loopback (wire : Wire) (node : Nat) : Bool :=
  (wire.stations[node]?.map fun station => Ctrl1.lpb.isSet (station.memory.get .ctrl1)).getD false

def sends (wire : Wire) (node : Nat) : Bool :=
  (wire.stations[node]?.map Station.running).getD false

theorem deliverNext_none {wire : Wire} (idle : wire.pending = []) :
    wire.deliverNext = (.ok false, wire) := by
  simp [deliverNext, idle]

theorem deliverNext_eq {wire : Wire} {transfer : Transfer} {rest : List Transfer}
    (waiting : wire.pending = transfer :: rest) (calm : wire.Calm) :
    wire.deliverNext = (.ok true,
      ⟨if wire.sends transfer.sender then
          wire.stations.mapIdx (Station.pass transfer (wire.loopback transfer.sender))
        else wire.stations, rest⟩) := by
  cases present : wire.stations[transfer.sender]? with
  | none => simp [deliverNext, waiting, send, sends, present]
  | some sender =>
      by_cases active : sender.running = true
      · simp only [deliverNext, waiting, send, sends, loopback, present, Option.map_some,
          Option.getD_some, active, if_true, broadcast_eq transfer _ 0 wire.stations calm,
          Nat.zero_add, modify, Prod.mk.injEq, true_and, Wire.mk.injEq, and_true]
        apply List.ext_getElem?
        intro place
        by_cases own : transfer.sender = place
        · subst own
          simp [Station.pass, present]
        · have other : ¬place = transfer.sender := Ne.symm own
          simp only [List.getElem?_modify_ne _ _ own, List.getElem?_mapIdx]
          cases wire.stations[place]? <;> simp [Station.pass, other]
      · simp [deliverNext, waiting, send, sends, present, active]

theorem keepsSetup_broadcast (transfer : Transfer) (loopback : Bool) (index : Nat)
    (stations : List Station) (node : Nat) (station : Station)
    (present : stations[node]? = some station) :
    ∃ after, (broadcast transfer loopback index stations).2[node]? = some after ∧
      station.KeepsSetup after := by
  induction stations generalizing index node with
  | nil => simp at present
  | cons first rest ih =>
      simp only [broadcast]
      split
      · have kept := first.keepsSetup_hear transfer
        cases outcome : first.hear transfer with
        | mk result after =>
            rw [outcome] at kept
            cases node with
            | zero =>
                simp only [List.getElem?_cons_zero, Option.some.injEq] at present
                subst present
                cases result <;> exact ⟨after, rfl, kept⟩
            | succ node =>
                simp only [List.getElem?_cons_succ] at present
                cases result with
                | error fault => exact ⟨station, present, Station.KeepsSetup.refl station⟩
                | ok _ => exact ih (index + 1) node present
      · cases node with
        | zero => exact ⟨station, present, Station.KeepsSetup.refl station⟩
        | succ node => exact ih (index + 1) node present

end Wire

end BufferedCan
