import BufferedCan.Proofs.Exchange.Match

/-! The replies that a player owes. One flag remembers that a reply is owed, not how many: a frame that is
taken while an older reply is still owed and the transmit buffer is busy costs a reply. That is the only
way to lose one, whatever happened to the two controllers before the match. -/

namespace BufferedCan

open PingPong

namespace Station

def free (running : Running) (station : Station) : Bool :=
  (station.codeOf running.transmitBuffer).isInactive

end Station

namespace System

structure Manned (variant : Variant) (node : Nat) (running : Running) (role : Role)
    (station : Station) (system : System) : Prop where
  consistent : system.Consistent
  seat : system.seat node = .running running
  present : system.wire.stations[node]? = some station
  settings : ∃ earlier, running.settings = PingPong.settings role variant earlier

variable {variant : Variant} {node : Nat} {player : Player} {system : System} {station : Station}

theorem Manned.active {running : Running} {role : Role}
    (manned : system.Manned variant node running role station) : station.Active running := by
  have active := manned.consistent.fits node station manned.present
  rw [manned.seat] at active
  exact active

theorem Manned.send_busy (manned : system.Manned variant node player.running player.role station)
    (busy : station.free player.running = false) :
    system.perform node player.send = (.error .wouldBlock, system) := by
  have plays : player.Plays variant := manned.settings
  rw [perform_eq manned.present, plays.send_eq,
    Running.run_transmit_of_busy node _ (plays.plain manned.active.sound) busy]
  dsimp only
  rw [Wire.replace_self manned.present]

theorem Manned.send_free (manned : system.Manned variant node player.running player.role station)
    (free : station.free player.running = true) :
    ∃ after changed transfer, system.perform node player.send = (.ok (), after) ∧
      after.Manned variant node player.running player.role changed ∧
      changed.free player.running = false ∧
      after.wire.pending = system.wire.pending ++ [transfer] := by
  have active := manned.active
  have bound := (List.getElem?_eq_some_iff.1 manned.present).1
  have agreed : station.layout = player.running.transmitBuffer.size := by
    rw [active.serves.layout, active.sound.buffers.transmitSize]
  have plays : player.Plays variant := manned.settings
  obtain ⟨changed, stored, storing⟩ :=
    Running.run_transmit_of_free node system.wire.pending agreed (plays.plain active.sound) free
  have consistent := manned.consistent.step
    (.send node (.standard player.role.transmitId) player.payload)
  rw [step_send manned.seat] at consistent
  have performed : system.perform node player.send =
      (.ok (), ⟨system.wire.replace node (changed, system.wire.pending ++
        [changed.outgoing node player.running.transmitBuffer.index]), system.seats⟩) := by
    rw [perform_eq manned.present, plays.send_eq, storing]
  rw [performed] at consistent
  refine ⟨_, changed, _, performed, ⟨consistent, manned.seat, system.wire.station_replace _ bound,
    manned.settings⟩, ?_, rfl⟩
  rw [Station.free, Station.codeOf, stored.control, Field.get_set]
  rfl

theorem Manned.receive (manned : system.Manned variant node player.running player.role station) :
    ∃ answer after changed, system.perform node player.running.receive = (answer, after) ∧
      after.Manned variant node player.running player.role changed ∧
      changed.free player.running = station.free player.running ∧
      after.wire.pending = system.wire.pending := by
  have active := manned.active
  have bound := (List.getElem?_eq_some_iff.1 manned.present).1
  have consistent := manned.consistent.step (.receive node)
  rw [step_receive manned.seat] at consistent
  rw [perform_eq manned.present, Running.run_receive] at consistent ⊢
  split at consistent
  next ready =>
    rw [if_pos ready]
    refine ⟨_, _, _, rfl, ⟨consistent, manned.seat, system.wire.station_replace _ bound,
      manned.settings⟩, ?_, rfl⟩
    have touched := station.touches_read (station.memory.get .iflag1 &&&
      ~~~flagWord player.running.receiveBuffer.index) player.running.receiveBuffer.index
    have agreed : station.layout = player.running.transmitBuffer.size := by
      rw [active.serves.layout, active.sound.buffers.transmitSize]
    rw [Station.free, Station.free, Station.codeOf_eq agreed,
      Station.codeOf_eq (touched.setup.layout.trans agreed),
      touched.code active.sound.buffers.apart (Station.transmit_lt active.sound active.serves)]
  next idle =>
    rw [if_neg idle]
    exact ⟨_, _, station, rfl, ⟨consistent, manned.seat, system.wire.station_replace _ bound,
      manned.settings⟩, rfl, rfl⟩

theorem Manned.reply (manned : system.Manned variant node player.running player.role station) :
    ∃ after changed, system.perform node player.reply =
        ((.ok (), { player with
          replyPending := player.replyPending && !station.free player.running }), after) ∧
      after.Manned variant node player.running player.role changed ∧
      changed.free player.running = false ∧
      after.wire.pending.length =
        system.wire.pending.length + (station.free player.running).toNat := by
  cases free : station.free player.running with
  | true =>
      obtain ⟨after, changed, transfer, sent, next, busy, pending⟩ := manned.send_free free
      refine ⟨after, changed, ?_, next, busy, by simp [pending]⟩
      rw [Player.reply, perform_bind, sent, Bool.not_true, Bool.and_false]
      rfl
  | false =>
      refine ⟨system, station, ?_, manned, free, rfl⟩
      rw [Player.reply, perform_bind, manned.send_busy free, Bool.not_false, Bool.and_true]
      rfl

theorem Manned.replyIfPending
    (manned : system.Manned variant node player.running player.role station) :
    ∃ after changed, system.perform node player.replyIfPending =
        ((.ok (), { player with
          replyPending := player.replyPending && !station.free player.running }), after) ∧
      after.Manned variant node player.running player.role changed ∧
      changed.free player.running = (station.free player.running && !player.replyPending) ∧
      after.wire.pending.length = system.wire.pending.length +
        (player.replyPending && station.free player.running).toNat := by
  unfold Player.replyIfPending
  cases owed : player.replyPending with
  | true =>
      obtain ⟨after, changed, replied, next, busy, pending⟩ := manned.reply
      rw [owed] at replied
      exact ⟨after, changed, replied, next, by rw [busy, Bool.not_true, Bool.and_false], pending⟩
  | false =>
      refine ⟨system, station, ?_, manned, by rw [Bool.not_false, Bool.and_true], rfl⟩
      rw [if_neg Bool.false_ne_true, perform_done, Bool.false_and, ← owed]

/-- What a poll comes to. The frame that it took may have cost a reply. -/
structure Served (variant : Variant) (node : Nat) (player next : Player) (free took : Bool)
    (before after : System) : Prop where
  manned : ∃ station, after.Manned variant node player.running player.role station
  running : next.running = player.running
  role : next.role = player.role
  received : next.received = if took then player.received + 1 else player.received
  grown : before.wire.pending.length ≤ after.wire.pending.length
  balance : after.wire.pending.length + next.replyPending.toNat +
      (took && player.replyPending && !free).toNat =
    before.wire.pending.length + player.replyPending.toNat + took.toNat

theorem Manned.serve (manned : system.Manned variant node player.running player.role station) :
    ∃ took next after, system.perform node player.serve = ((.ok took, next), after) ∧
      Served variant node player next (station.free player.running) took system after := by
  obtain ⟨early, first, replied, manned, vacant, sent⟩ := manned.replyIfPending
  obtain ⟨answer, middle, second, receiving, manned, same, kept⟩ := manned.receive
  rw [Player.serve, perform_bind, replied]
  dsimp only
  rw [perform_bind, receiving]
  cases answer with
  | none =>
      refine ⟨false, _, _, rfl, ⟨second, manned⟩, rfl, rfl, rfl, by rw [kept]; omega, ?_⟩
      dsimp only
      rw [kept, sent]
      cases player.replyPending <;> cases station.free player.running <;> rfl
  | some message =>
      have free : second.free player.running =
          (station.free player.running && !player.replyPending) := same.trans vacant
      have seated : middle.Manned variant node
          { player with received := player.received + 1, replyPending := true : Player }.running
          { player with received := player.received + 1, replyPending := true : Player }.role
          second := manned
      obtain ⟨last, third, answered, manned, -, grown⟩ := seated.reply
      rw [Bool.true_and] at answered
      refine ⟨true, { player with
        received := player.received + 1
        replyPending := !second.free player.running }, last, ?_, ⟨third, manned⟩, rfl, rfl, rfl,
        by rw [grown, kept]; omega, ?_⟩
      · dsimp only
        rw [perform_bind, Player.count, answered]
        rfl
      · dsimp only at grown ⊢
        rw [grown, kept, sent, free]
        cases player.replyPending <;> cases station.free player.running <;> rfl

end System

namespace Table

variable {ε σ : Role → Type} (table : Table ε σ) {variant : Variant} {game : Match σ}

def free (game : Match σ) (role : Role) : Bool :=
  match game.system.wire.stations[table.place role]? with
  | some station => station.free (game.player role).running
  | none => false

/-! What one turn adds to the account of a player. -/

def frames (role : Role) (game : Match σ) (turn : Turn) : Nat :=
  if turn = .poll role then
    match (table.poll game role).1 with
    | .ok true => 1
    | _ => 0
  else 0

def replies (role : Role) (game : Match σ) (turn : Turn) : Nat :=
  if turn = .poll role then
    (table.poll game role).2.system.wire.pending.length - game.system.wire.pending.length
  else 0

/-- The frames that were taken while a reply was owed that could not be sent. -/
def drops (role : Role) (game : Match σ) (turn : Turn) : Nat :=
  if (game.player role).replyPending && !table.free game role then table.frames role game turn
  else 0

def total (measure : Match σ → Turn → Nat) : Match σ → List Turn → Nat
  | _, [] => 0
  | game, turn :: rest => measure game turn + total measure (table.turn game turn) rest

structure Ready (variant : Variant) (game : Match σ) : Prop where
  consistent : game.system.Consistent
  seat : ∀ role, game.system.seat (table.place role) = .running (game.player role).running
  plays : ∀ role, (game.player role).Plays variant

variable {table}

theorem Ready.manned (ready : table.Ready variant game) (role : Role) :
    ∃ station, game.system.Manned variant (table.place role) (game.player role).running
      (game.player role).role station ∧
        table.free game role = station.free (game.player role).running := by
  have seat := ready.seat role
  have held : game.system.seat (table.place role) ≠ .gone := by simp [seat]
  obtain ⟨station, present⟩ := ready.consistent.present held
  exact ⟨station, ⟨ready.consistent, seat, present, ready.plays role⟩, by rw [free, present]⟩

theorem Ready.served (ready : table.Ready variant game) (role : Role) :
    ∃ took next after lamp, table.poll game role =
        (.ok took, { system := after, player := Function.update game.player role next, lamp }) ∧
      System.Served variant (table.place role) (game.player role) next (table.free game role) took
        game.system after ∧
      ∀ node, after.seat node = game.system.seat node := by
  obtain ⟨station, manned, free⟩ := ready.manned role
  obtain ⟨took, next, after, serving, served⟩ := manned.serve
  obtain ⟨lamp, polled⟩ := table.poll_eq game role
  have seats (node : Nat) :=
    game.system.seat_perform (table.place role) (game.player role).serve node
  rw [serving] at polled seats
  rw [← free] at served
  exact ⟨took, next, after, lamp, polled, served, seats⟩

theorem Ready.turn (ready : table.Ready variant game) (turn : Turn) :
    table.Ready variant (table.turn game turn) := by
  cases turn with
  | deliverNext => exact ⟨ready.consistent.step .deliverNext, ready.seat, ready.plays⟩
  | start role =>
      refine ⟨?_, ready.seat, ready.plays⟩
      simp only [Table.turn, Table.start, Player.start]
      split
      · have sent := ready.consistent.step (.send (table.place role)
          (.standard (game.player role).role.transmitId) (game.player role).payload)
        rw [System.step_send (ready.seat role)] at sent
        exact sent
      · exact ready.consistent
  | poll role =>
      obtain ⟨took, next, after, lamp, polled, served, seats⟩ := ready.served role
      obtain ⟨station, manned⟩ := served.manned
      simp only [Table.turn, polled]
      refine ⟨manned.consistent, ?_, ?_⟩
      · intro other
        dsimp only
        rw [seats, ready.seat other]
        by_cases own : other = role
        · subst own
          rw [Function.update_self, served.running]
        · rw [Function.update_of_ne own]
      · intro other
        dsimp only
        by_cases own : other = role
        · subst own
          rw [Function.update_self, Player.Plays, served.running, served.role]
          exact ready.plays other
        · rw [Function.update_of_ne own]
          exact ready.plays other

theorem Ready.account (ready : table.Ready variant game) (role : Role) (turn : Turn) :
    table.replies role game turn + ((table.turn game turn).player role).replyPending.toNat +
        table.drops role game turn =
      (game.player role).replyPending.toNat + table.frames role game turn ∧
    ((table.turn game turn).player role).received =
      (game.player role).received + UInt32.ofNat (table.frames role game turn) := by
  by_cases own : turn = .poll role
  · subst own
    obtain ⟨took, next, after, lamp, polled, served, -⟩ := ready.served role
    have balance := served.balance
    have received := served.received
    have frames : table.frames role game (.poll role) = took.toNat := by
      rw [Table.frames, if_pos rfl, polled]
      cases took <;> rfl
    have dropped : table.drops role game (.poll role) =
        (took && (game.player role).replyPending && !table.free game role).toNat := by
      rw [Table.drops, frames, Bool.and_assoc]
      split
      next lost => rw [lost, Bool.and_true]
      next kept =>
        rw [Bool.not_eq_true] at kept
        rw [kept, Bool.and_false]
        rfl
    have grown := served.grown
    rw [dropped, frames, Table.replies, if_pos rfl]
    simp only [Table.turn, polled, Function.update_self]
    constructor
    · omega
    · rw [received]
      cases took
      · exact (UInt32.add_zero _).symm
      · rfl
  · have still : table.frames role game turn = 0 := if_neg own
    have same : (table.turn game turn).player role = game.player role := by
      cases turn with
      | deliverNext => rfl
      | start other => rfl
      | poll other =>
          have apart : role ≠ other := fun equal => own (by rw [equal])
          exact Function.update_of_ne apart _ _
    rw [Table.replies, if_neg own, Table.drops, still, same]
    simp

theorem Ready.play (ready : table.Ready variant game) (role : Role) (turns : List Turn) :
    table.Ready variant (table.play game turns) ∧
    table.total (table.replies role) game turns +
        ((table.play game turns).player role).replyPending.toNat +
        table.total (table.drops role) game turns =
      (game.player role).replyPending.toNat + table.total (table.frames role) game turns ∧
    ((table.play game turns).player role).received =
      (game.player role).received + UInt32.ofNat (table.total (table.frames role) game turns) := by
  induction turns generalizing game with
  | nil => exact ⟨ready, by simp [total, Table.play], by simp [total, Table.play]⟩
  | cons turn rest ih =>
      obtain ⟨replies, received⟩ := ready.account role turn
      obtain ⟨last, laterReplies, laterReceived⟩ := ih (ready.turn turn)
      refine ⟨last, ?_, ?_⟩
      · simp only [total, Table.play, List.foldl_cons] at laterReplies ⊢
        omega
      · simp only [total, Table.play, List.foldl_cons] at laterReceived ⊢
        rw [laterReceived, received, UInt32.add_assoc, ← UInt32.ofNat_add]

/-- Whatever happened to two controllers before, and whatever the schedule of the match is: each frame
that a player has taken is answered, or its answer is owed, or it was taken while another answer was owed
that the busy transmit buffer held up. -/
theorem replies_account (table : Table ε σ) (variant : Variant) (before : List Action)
    (running : Role → Running) (lamp : (role : Role) → σ role)
    (seated : ∀ role, (System.empty.after before).seat (table.place role) = .running (running role))
    (built : ∀ role, ∃ earlier, (running role).settings = settings role variant earlier)
    (turns : List Turn) (role : Role) :
    let game := opening (System.empty.after before) running lamp
    let last := table.play game turns
    table.total (table.replies role) game turns + (last.player role).replyPending.toNat +
        table.total (table.drops role) game turns =
      table.total (table.frames role) game turns ∧
    (last.player role).received = UInt32.ofNat (table.total (table.frames role) game turns) := by
  have ready : table.Ready variant (opening (System.empty.after before) running lamp) :=
    ⟨System.consistent_empty.run before, seated, built⟩
  obtain ⟨-, replies, received⟩ := ready.play role turns
  refine ⟨replies.trans ?_, received.trans ?_⟩
  · exact Nat.zero_add _
  · exact UInt32.zero_add _

def hurry : List Turn :=
  [.start .nodeA, .deliverNext, .start .nodeA, .poll .nodeB, .deliverNext, .poll .nodeB,
    .start .nodeA, .deliverNext, .deliverNext, .start .nodeA, .poll .nodeB, .deliverNext,
    .poll .nodeB]

theorem hurry_frames :
    let game := opening (System.empty.after (exchange false)) (classic false) fun _ => 0
    counters.total (counters.frames .nodeB) game hurry = 4 ∧
      counters.total (counters.drops .nodeB) game hurry = 1 ∧
      ((counters.play game hurry).player .nodeB).replyPending = true := by
  decide +kernel

/-- The second player has then taken four frames, answered two of them and owes one answer. -/
theorem hurry_replies :
    let game := opening (System.empty.after (exchange false)) (classic false) fun _ => 0
    (∀ role, (System.empty.after (exchange false)).seat (counters.place role) =
        .running (classic false role)) ∧
      (∀ role, ∃ earlier, (classic false role).settings = settings role .classic earlier) ∧
      counters.total (counters.frames .nodeB) game hurry = 4 ∧
      counters.total (counters.replies .nodeB) game hurry = 2 ∧
      ((counters.play game hurry).player .nodeB).replyPending = true := by
  obtain ⟨frames, drops, owed⟩ := hurry_frames
  have seated := exchange_seats false
  have built : ∀ role, ∃ earlier, (classic false role).settings = settings role .classic earlier :=
    fun role => ⟨_, rfl⟩
  have account := (replies_account counters .classic (exchange false) (classic false) (fun _ => 0)
    seated built hurry .nodeB).1
  refine ⟨seated, built, frames, ?_, owed⟩
  rw [frames, drops, owed, Bool.toNat_true] at account
  omega

end Table

end BufferedCan
