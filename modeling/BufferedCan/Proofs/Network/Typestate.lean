import BufferedCan.Proofs.Network.Consistency

/-! What the two kinds of holders can rely on. A frozen controller is in freeze mode, and no delivery
reaches it. A running one takes part in the bus and looks for its buffers where the software has put
them. The controller derives its layout from three registers and the software from its settings, so
that they agree has to survive every sequence of setups, those that fail included. -/

namespace BufferedCan

namespace Station

/-- Freeze mode was asked for and entered. -/
structure Paused (station : Station) : Prop where
  enabled : Mcr.mdis.isSet (station.memory.get .mcr) = false
  freeze : Mcr.frz.isSet (station.memory.get .mcr) = true
  halt : Mcr.halt.isSet (station.memory.get .mcr) = true
  acknowledged : Mcr.frzack.isSet (station.memory.get .mcr) = true

/-- The controller takes part in the bus, and its configuration register says so. -/
structure Online (station : Station) : Prop where
  running : station.running = true
  ready : Mcr.notrdy.isSet (station.memory.get .mcr) = false
  thawed : Mcr.frzack.isSet (station.memory.get .mcr) = false
  powered : Mcr.lpmack.isSet (station.memory.get .mcr) = false

structure Places (station : Station) (buffer : Buffer) : Prop where
  control : station.bufferOffset buffer.index = ramOffset buffer.controlWord
  ident : station.bufferOffset buffer.index + 4 = ramOffset buffer.identWord
  payload : ∀ number, station.bufferOffset buffer.index + 8 + 4 * number =
    ramOffset (buffer.payloadWord number)

/-- Controller and software have the same layout in mind. Every buffer that takes part is one that the
software can name, and the other way round. -/
structure SharesLayout (running : Running) (station : Station) : Prop where
  transmit : station.layout = running.transmitBuffer.size
  receive : station.layout = running.receiveBuffer.size
  active : station.activeBuffers = running.transmitBuffer.size.bufferCount
  places : ∀ index, index < station.activeBuffers →
    ∃ buffer, Buffer.at? running.transmitBuffer.size index = some buffer ∧
      buffer.index = index ∧ station.Places buffer

variable {station : Station} {clock : Clock} {running : Running}

theorem places_of_layout {buffer : Buffer} (agreed : station.layout = buffer.size) :
    station.Places buffer := by
  have offset : station.bufferOffset buffer.index = ramOffset buffer.controlWord := by
    rw [bufferOffset, agreed, Buffer.controlWord]
  refine ⟨offset, ?_, ?_⟩
  · rw [offset, Buffer.identWord, ramOffset, ramOffset]
    omega
  · intro number
    rw [offset, Buffer.payloadWord, ramOffset, ramOffset]
    omega

theorem Halted.paused (halted : station.Halted clock) : station.Paused := by
  have asks := halted.asks
  simp only [Mcr.asksForFreeze, Bool.and_eq_true] at asks
  exact ⟨halted.awake, asks.1, asks.2, halted.frozen⟩

theorem Paused.offline (paused : station.Paused) : station.running = false := by
  simp [Station.running, Mcr.asksForFreeze, paused.freeze, paused.halt]

theorem Active.online (active : station.Active running) : station.Online :=
  ⟨active.serves.running, active.ready, active.thawed, active.powered⟩

theorem Active.sharesLayout (active : station.Active running) : station.SharesLayout running := by
  have transmit : station.layout = running.transmitBuffer.size := by
    rw [active.serves.layout, active.sound.buffers.transmitSize]
  have count : station.activeBuffers = running.transmitBuffer.size.bufferCount := by
    rw [active.serves.active, active.sound.buffers.transmitSize]
  refine ⟨transmit, ?_, count, ?_⟩
  · rw [active.serves.layout, active.sound.buffers.receiveSize]
  · intro index inside
    rw [count] at inside
    refine ⟨⟨running.transmitBuffer.size, index, inside⟩, ?_, rfl, places_of_layout transmit⟩
    rw [Buffer.at?, dif_pos inside]

theorem hear_offline (offline : station.running = false) (transfer : Transfer) :
    station.hear transfer = (.ok (), station) := by
  simp [hear, follows, offline]

end Station

namespace Wire

variable {wire : Wire} {node : Nat} {station : Station}

theorem broadcast_offline (transfer : Transfer) (loopback : Bool) (index : Nat)
    {stations : List Station} (present : stations[node]? = some station)
    (offline : station.running = false) :
    (broadcast transfer loopback index stations).2[node]? = some station := by
  induction stations generalizing index node with
  | nil => exact present
  | cons first rest ih =>
      cases node with
      | zero =>
          simp only [List.getElem?_cons_zero, Option.some.injEq] at present
          subst present
          simp only [broadcast, Station.hear_offline offline]
          split <;> rfl
      | succ node =>
          simp only [List.getElem?_cons_succ] at present
          simp only [broadcast]
          split
          · cases first.hear transfer with
            | mk outcome after =>
                cases outcome with
                | error fault => exact present
                | ok _ => exact ih (index + 1) present
          · exact ih (index + 1) present

theorem send_offline (transfer : Transfer) (present : wire.stations[node]? = some station)
    (offline : station.running = false) :
    (wire.send transfer).2.stations[node]? = some station := by
  unfold send
  split
  next => exact present
  next sender found =>
    split
    next online =>
      have heard := broadcast_offline transfer (Ctrl1.lpb.isSet (sender.memory.get .ctrl1)) 0
        present offline
      -- The sender is online, so it is another node that completes its buffer.
      have apart : transfer.sender ≠ node := by
        rintro rfl
        rw [present, Option.some.injEq] at found
        rw [← found, offline] at online
        cases online
      cases outcome : broadcast transfer (Ctrl1.lpb.isSet (sender.memory.get .ctrl1)) 0
          wire.stations with
      | mk result stations =>
          rw [outcome] at heard
          simp only [outcome]
          cases result with
          | error fault => exact heard
          | ok _ => exact (List.getElem?_modify_ne _ _ apart).trans heard
    next => exact present

theorem deliverNext_offline (present : wire.stations[node]? = some station)
    (offline : station.running = false) :
    wire.deliverNext.2.stations[node]? = some station := by
  cases waiting : wire.pending with
  | nil => rw [deliverNext_idle waiting, present]
  | cons transfer rest =>
      rw [deliverNext_waiting waiting]
      exact send_offline transfer present offline

end Wire

/-- What can happen on a wire: an action of the software, or that a controller is taken over by
somebody else. -/
inductive Occurrence
  | act (action : Action)
  | takeOver (node : Nat) (clock : Clock) (bitRate : UInt32)

namespace System

def undergo (system : System) : Occurrence → System
  | .act action => (system.step action).2
  | .takeOver node clock bitRate => (system.takeOver node clock bitRate).2

variable {system : System} {node : Nat} {station : Station}

theorem confined_takeOver (system : System) (node : Nat) (clock : Clock) (bitRate : UInt32) :
    system.Confined node (system.takeOver node clock bitRate).2 :=
  (system.confined_perform node (Frozen.attach clock bitRate).run).trans (confined_settle _ _ _)

theorem Consistent.takeOver (consistent : system.Consistent) (node : Nat) (clock : Clock)
    (bitRate : UInt32) : (system.takeOver node clock bitRate).2.Consistent := by
  have confined := system.confined_takeOver node clock bitRate
  refine consistent.confined confined ?_
  intro changed present
  obtain ⟨station, before⟩ := confined.before present
  obtain ⟨turned, right⟩ := consistent.turned_takeOver before clock bitRate
  rw [← Option.some.inj (right.present.symm.trans present)]
  exact right.fits

theorem Consistent.undergo (consistent : system.Consistent) (occurrence : Occurrence) :
    (system.undergo occurrence).Consistent := by
  cases occurrence with
  | act action => exact consistent.step action
  | takeOver node clock bitRate => exact consistent.takeOver node clock bitRate

theorem Consistent.history (consistent : system.Consistent) (occurrences : List Occurrence) :
    (occurrences.foldl System.undergo system).Consistent := by
  induction occurrences generalizing system with
  | nil => exact consistent
  | cons occurrence rest ih => exact ih (consistent.undergo occurrence)

/-- Whoever holds the node finds the controller in the mode, and with the layout, that the hold stands
for. -/
def Upholds (system : System) (node : Nat) : Prop :=
  match system.seat node with
  | .gone => True
  | .frozen _ => ∃ station, system.wire.stations[node]? = some station ∧ station.Paused ∧
      (system.step .deliverNext).2.wire.stations[node]? = some station
  | .running running => ∃ station, system.wire.stations[node]? = some station ∧
      station.Online ∧ station.SharesLayout running

theorem Consistent.upholds (consistent : system.Consistent) (node : Nat) :
    system.Upholds node := by
  unfold Upholds
  split
  next => trivial
  next frozen seat =>
    have held : system.seat node ≠ .gone := by simp [seat]
    obtain ⟨station, present⟩ := consistent.present held
    have halted := consistent.fits node station present
    rw [seat] at halted
    have paused := Station.Halted.paused halted
    exact ⟨station, present, paused, Wire.deliverNext_offline present paused.offline⟩
  next running seat =>
    have held : system.seat node ≠ .gone := by simp [seat]
    obtain ⟨station, present⟩ := consistent.present held
    have active := consistent.fits node station present
    rw [seat] at active
    exact ⟨station, present, Station.Active.online active, Station.Active.sharesLayout active⟩

/-- Whatever happened on a wire that was empty at first, every holder finds what the hold stands for. -/
theorem upholds_of_history (occurrences : List Occurrence) (node : Nat) :
    (occurrences.foldl undergo empty).Upholds node :=
  (consistent_empty.history occurrences).upholds node

end System

end BufferedCan
