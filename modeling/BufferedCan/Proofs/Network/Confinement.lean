import BufferedCan.Proofs.Network.System

/-! What a step can reach. A call of one node changes that node alone, and adds transfers of that node to
those that wait. A delivery takes one of them away and leaves the setup of every controller alone. -/

namespace BufferedCan

def Transfer.From (node : Nat) (transfer : Transfer) : Prop :=
  transfer.sender = node ∧ transfer.buffer < 32

namespace Wire

/-- The number of controllers stays, and of them at most one changes. -/
structure Confined (node : Nat) (before after : Wire) : Prop where
  length : after.stations.length = before.stations.length
  others : ∀ other, other ≠ node → after.stations[other]? = before.stations[other]?
  pending : ∃ sent, after.pending = before.pending ++ sent ∧ ∀ transfer ∈ sent, transfer.From node

variable {node : Nat} {wire first second third : Wire}

theorem Confined.refl (node : Nat) (wire : Wire) : wire.Confined node wire :=
  ⟨rfl, fun _ _ => rfl, [], (List.append_nil _).symm, by simp⟩

theorem Confined.trans (left : first.Confined node second) (right : second.Confined node third) :
    first.Confined node third := by
  obtain ⟨early, leftPending, earlyOwn⟩ := left.pending
  obtain ⟨late, rightPending, lateOwn⟩ := right.pending
  refine ⟨right.length.trans left.length, ?_, early ++ late, ?_, ?_⟩
  · intro other apart
    rw [right.others other apart, left.others other apart]
  · rw [rightPending, leftPending, List.append_assoc]
  · intro transfer member
    rcases List.mem_append.mp member with sent | sent
    · exact earlyOwn transfer sent
    · exact lateOwn transfer sent

theorem request?_from {offset : Nat} {transfer : Transfer}
    (asked : wire.request? node offset = some transfer) : transfer.From node := by
  simp only [request?, Option.bind_eq_bind, Option.bind_eq_some_iff] at asked
  obtain ⟨word, -, station, -, asked⟩ := asked
  simp only [Station.request?] at asked
  split at asked
  next handed =>
    obtain ⟨-, bound, -⟩ := handed
    simp only [Option.some.injEq] at asked
    subst transfer
    exact ⟨rfl, Nat.lt_of_lt_of_le bound (DataSize.bufferCount_le _)⟩
  next => cases asked

theorem confined_read (wire : Wire) (node offset : Nat) :
    wire.Confined node (wire.read node offset).2 := by
  unfold read
  split
  next => exact .refl node wire
  next station present =>
    refine ⟨by simp, ?_, [], (List.append_nil _).symm, by simp⟩
    intro other apart
    exact List.getElem?_set_ne apart.symm

theorem confined_write (wire : Wire) (node offset : Nat) (value : UInt32) :
    wire.Confined node (wire.write node offset value) := by
  refine ⟨by simp [write, modify], ?_, _, rfl, ?_⟩
  · intro other apart
    exact List.getElem?_modify_ne _ _ apart.symm
  · intro transfer member
    exact request?_from (Option.mem_toList.mp member)

theorem confined_run {α : Type} (program : Program registers α) (wire : Wire) (node : Nat) :
    wire.Confined node (program.run (access node) wire).2 := by
  induction program generalizing wire with
  | done value => exact .refl node wire
  | ask call next ih =>
      cases call with
      | read offset => exact (wire.confined_read node offset).trans (ih _ _)
      | write offset value => exact (wire.confined_write node offset value).trans (ih _ _)

theorem length_broadcast (transfer : Transfer) (loopback : Bool) (index : Nat)
    (stations : List Station) :
    (broadcast transfer loopback index stations).2.length = stations.length := by
  induction stations generalizing index with
  | nil => rfl
  | cons station rest ih =>
      simp only [broadcast]
      split
      · cases station.hear transfer with
        | mk result after =>
            cases result with
            | error fault => rfl
            | ok _ => simp [ih]
      · simp [ih]

theorem keepsSetup_send {transfer : Transfer} (bounded : transfer.buffer < 32) {station : Station}
    (present : wire.stations[node]? = some station) :
    ∃ after, (wire.send transfer).2.stations[node]? = some after ∧ station.KeepsSetup after := by
  unfold send
  split
  next => exact ⟨station, present, .refl station⟩
  next sender found =>
    split
    next =>
      have kept := keepsSetup_broadcast transfer (Ctrl1.lpb.isSet (sender.memory.get .ctrl1)) 0
        wire.stations node station present
      obtain ⟨heard, heardAt, kept⟩ := kept
      cases outcome : broadcast transfer (Ctrl1.lpb.isSet (sender.memory.get .ctrl1)) 0
          wire.stations with
      | mk result stations =>
          rw [outcome] at heardAt
          simp only [outcome]
          cases result with
          | error fault => exact ⟨heard, heardAt, kept⟩
          | ok _ =>
              by_cases own : transfer.sender = node
              · refine ⟨heard.complete transfer.buffer, ?_,
                  kept.trans (heard.keepsSetup_complete bounded)⟩
                simp only [modify, own, List.getElem?_modify_eq, heardAt]
                rfl
              · refine ⟨heard, ?_, kept⟩
                simp only [modify, List.getElem?_modify_ne _ _ own, heardAt]
    next => exact ⟨station, present, .refl station⟩

theorem length_send (wire : Wire) (transfer : Transfer) :
    (wire.send transfer).2.stations.length = wire.stations.length := by
  unfold send
  split
  next => rfl
  next sender _ =>
    split
    next =>
      have same := length_broadcast transfer (Ctrl1.lpb.isSet (sender.memory.get .ctrl1)) 0
        wire.stations
      cases outcome : broadcast transfer (Ctrl1.lpb.isSet (sender.memory.get .ctrl1)) 0
          wire.stations with
      | mk result stations =>
          rw [outcome] at same
          simp only [outcome]
          cases result with
          | error fault => exact same
          | ok _ => simpa [modify] using same
    next => rfl

theorem deliverNext_idle (idle : wire.pending = []) :
    wire.deliverNext.2.stations = wire.stations := by
  simp only [deliverNext, idle]

theorem deliverNext_waiting {transfer : Transfer} {rest : List Transfer}
    (waiting : wire.pending = transfer :: rest) :
    wire.deliverNext.2.stations =
      (Wire.send { wire with pending := rest } transfer).2.stations := by
  simp only [deliverNext, waiting]
  cases Wire.send { wire with pending := rest } transfer with
  | mk result after => cases result <;> rfl

theorem length_deliverNext (wire : Wire) :
    wire.deliverNext.2.stations.length = wire.stations.length := by
  cases waiting : wire.pending with
  | nil => rw [deliverNext_idle waiting]
  | cons transfer rest =>
      rw [deliverNext_waiting waiting]
      exact length_send _ _

theorem keepsSetup_deliverNext (bounded : ∀ transfer ∈ wire.pending, transfer.buffer < 32)
    {station : Station} (present : wire.stations[node]? = some station) :
    ∃ after, wire.deliverNext.2.stations[node]? = some after ∧ station.KeepsSetup after := by
  cases waiting : wire.pending with
  | nil =>
      rw [deliverNext_idle waiting]
      exact ⟨station, present, .refl station⟩
  | cons transfer rest =>
      rw [deliverNext_waiting waiting]
      exact keepsSetup_send (bounded transfer (by simp [waiting])) present

end Wire

namespace System

structure Confined (node : Nat) (before after : System) : Prop where
  wire : before.wire.Confined node after.wire
  length : after.seats.length = before.seats.length
  others : ∀ other, other ≠ node → after.seat other = before.seat other

variable {node : Nat} {system first second third : System}

theorem Confined.refl (node : Nat) (system : System) : system.Confined node system :=
  ⟨.refl node _, rfl, fun _ _ => rfl⟩

theorem Confined.trans (left : first.Confined node second) (right : second.Confined node third) :
    first.Confined node third where
  wire := left.wire.trans right.wire
  length := right.length.trans left.length
  others other apart := by rw [right.others other apart, left.others other apart]

theorem seat_hold_of_ne (system : System) {other : Nat} (seat : Seat) (apart : other ≠ node) :
    (system.hold node seat).seat other = system.seat other := by
  simp only [System.seat, hold, List.getD_eq_getElem?_getD, List.getElem?_set_ne apart.symm]

theorem confined_perform {α : Type} (system : System) (node : Nat)
    (program : Program registers α) : system.Confined node (system.perform node program).2 :=
  ⟨Wire.confined_run program system.wire node, rfl, fun _ _ => rfl⟩

theorem confined_hold (system : System) (node : Nat) (seat : Seat) :
    system.Confined node (system.hold node seat) :=
  ⟨.refl node _, by simp [hold], fun _ apart => system.seat_hold_of_ne seat apart⟩

theorem confined_settle (system : System) (node : Nat) (outcome : Except SetupError Seat) :
    system.Confined node (system.settle node outcome).2 := by
  cases outcome with
  | error error => exact system.confined_hold node .gone
  | ok seat => exact system.confined_hold node seat

theorem confined_attach (system : System) (station : Station) (clock : Clock) (bitRate : UInt32) :
    (system.join station).Confined system.wire.stations.length
      (system.attach station clock bitRate).2 := by
  have performed := (system.join station).confined_perform system.wire.stations.length
    (Frozen.attach clock bitRate).run
  exact performed.trans (confined_settle _ _ _)

theorem confined_call {α : Type} (system : System) (node : Nat) (answer : α → Reply Message)
    (program : Running → Program registers α) :
    system.Confined node (system.call node answer program).2 := by
  unfold call
  split
  next => exact confined_perform _ _ _
  next => exact .refl node system

end System

def Action.node? : Action → Option Nat
  | .attach .. | .deliverNext => none
  | .adjust node _ | .finalize node | .configure node | .transmit node _ | .send node _ _ |
    .receive node | .status node | .timeStamp node | .stall node => some node

theorem System.confined_step {system : System} {action : Action} {node : Nat}
    (about : action.node? = some node) : system.Confined node (system.step action).2 := by
  cases action with
  | attach => cases about
  | deliverNext => cases about
  | adjust own settings =>
      cases about
      simp only [step]
      split
      next => exact confined_hold _ _ _
      next => exact .refl node system
  | finalize own =>
      cases about
      simp only [step]
      split
      next frozen _ =>
        have performed := system.confined_perform node frozen.start
        unfold finalize
        split
        next after outcome =>
          rw [outcome] at performed
          exact performed.trans (confined_hold _ _ _)
        next result after outcome =>
          rw [outcome] at performed
          exact performed.trans (confined_settle _ _ _)
      next => exact .refl node system
  | configure own =>
      cases about
      simp only [step]
      split
      next running _ =>
        have performed := system.confined_perform node running.freeze.run
        exact performed.trans (confined_settle _ _ _)
      next => exact .refl node system
  | transmit own draft => cases about; exact confined_call _ _ _ _
  | send own id payload => cases about; exact confined_call _ _ _ _
  | receive own => cases about; exact confined_call _ _ _ _
  | status own => cases about; exact confined_call _ _ _ _
  | timeStamp own => cases about; exact confined_call _ _ _ _
  | stall own =>
      cases about
      refine ⟨⟨by simp [step, Wire.stall, Wire.modify], ?_, [], ?_, by simp⟩, rfl, fun _ _ => rfl⟩
      · intro other apart
        exact List.getElem?_modify_ne _ _ apart.symm
      · simp [step, Wire.stall, Wire.modify]

end BufferedCan
