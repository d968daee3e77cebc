import BufferedCan.Proofs.Exchange.Replies
import BufferedCan.Proofs.Network.Silence

/-! The token of an exchange. Once the first player has started, one frame goes back and forth between two
players that hear each other: it is either on its way or received and not yet answered. No schedule loses
it, doubles it or stores it on top of another one, and no reply ever has to wait. -/

namespace BufferedCan

open PingPong

namespace PingPong.Role

def other : Role → Role
  | nodeA => nodeB
  | nodeB => nodeA

theorem receiveId_other (role : Role) : role.other.receiveId = role.transmitId := by
  cases role <;> rfl

theorem transmitId_ne_receiveId (role : Role) : role.transmitId ≠ role.receiveId := by
  cases role <;> decide

theorem eq_other_of_ne {first second : Role} (apart : first ≠ second) : first = second.other := by
  cases first <;> cases second <;> first | rfl | exact absurd rfl apart

theorem other_ne (role : Role) : role.other ≠ role := by
  cases role <;> decide

theorem other_other (role : Role) : role.other.other = role := by
  cases role <;> rfl

end PingPong.Role

/-- Where the token is: in a frame that is on its way, or with a player who has received it. -/
inductive Token
  | flying (sender : Role)
  | landed (receiver : Role)
  deriving DecidableEq

def Token.lead : Token → UInt32
  | flying .nodeA | landed .nodeB => 0
  | flying .nodeB | landed .nodeA => 1

def Token.after : Token → Turn → Token
  | flying sender, .deliverNext => landed sender.other
  | landed receiver, .poll role => if role = receiver then flying receiver else landed receiver
  | token, _ => token

def Table.Shows {ε σ : Role → Type} (table : Table ε σ) (game : Match σ) : Token → Prop
  | .flying sender =>
    (game.system.wire.pending.map Transfer.sender).count (table.place sender) = 1
  | .landed receiver => game.system.Flagged (table.place receiver)

/-- What is promised of a match that has begun. -/
structure Table.Orderly {ε σ : Role → Type} (table : Table ε σ) (game : Match σ) (token : Token) :
    Prop where
  shows : ∀ other, table.Shows game other ↔ other = token
  alone : game.system.wire.pending.length ≤ 1
  lead : (game.player .nodeB).received - (game.player .nodeA).received = token.lead
  answered : ∀ role, (game.player role).replyPending = false
  polls : ∀ role, ∃ took, (table.poll game role).1 = .ok took ∧
    (took = true ↔ game.system.Flagged (table.place role))
  whole : ∀ role message,
    (game.system.step (.receive (table.place role))).1 = .message message → message.overrun = false

/-! The frame of the exchange is for the other player, and only for him. -/

section
variable {member : Member} {variant : Variant} {earlier : Settings} {own : Role}

theorem Member.follows_ball (settings : member.settings = PingPong.settings own variant earlier)
    (place : Nat) (sender : Role) :
    member.follows ⟨place, ball sender variant, ballCode variant⟩ = true := by
  have mode : member.settings.mode = variant.mode := by rw [settings]; rfl
  rw [Member.follows, mode]
  cases variant <;> rfl

theorem Member.slot_hear_ball (settings : member.settings = PingPong.settings own variant earlier)
    (place : Nat) (sender : Role) :
    (member.hear ⟨place, ball sender variant, ballCode variant⟩).slot =
      if own = sender then member.slot
      else some { frame := ⟨place, ball sender variant, ballCode variant⟩
                  overrun := member.slot.isSome
                  timestamp := member.time } := by
  have receives : member.settings.buffers.receiveId = own.receiveId := by rw [settings]; rfl
  have ident : (ball sender variant).id = .standard sender.transmitId := rfl
  rw [Member.hear, if_pos (Member.follows_ball settings place sender)]
  dsimp only
  rw [receives, ident]
  split
  next same =>
    rw [Identifier.standard.injEq] at same
    rw [if_neg]
    rintro rfl
    exact own.transmitId_ne_receiveId same
  next different =>
    rw [if_pos]
    by_contra apart
    rw [Role.eq_other_of_ne apart, Role.receiveId_other] at different
    exact different rfl

end

namespace System

variable {variant : Variant} {node : Nat} {player : Player} {system : System} {station : Station}
  {member : Member} {busy : Bool}

theorem perform_send (present : system.wire.stations[node]? = some station)
    (hosts : station.Hosts player.running member false) (plays : player.Plays variant) :
    ∃ changed, system.perform node player.send =
        (.ok (), ⟨system.wire.replace node (changed, system.wire.pending ++
          [changed.outgoing node player.running.transmitBuffer.index]), system.seats⟩) ∧
      changed.Hosts player.running member true ∧
      (changed.outgoing node player.running.transmitBuffer.index).Carries
        (ball player.role variant) (ballCode variant) := by
  have agreed := hosts.transmitLayout
  have free : (station.codeOf player.running.transmitBuffer).isInactive = true := by
    rw [Station.codeOf_eq agreed]
    exact hosts.idle rfl
  obtain ⟨changed, stored, storing⟩ := Running.run_transmit_of_free node system.wire.pending agreed
    (plays.plain hosts.sound) free
  have next := hosts.store stored
  have taken := ball_taken player.role plays.mode
  obtain ⟨plain, fits⟩ := Settings.plain_of_refusal? taken
  rw [← hosts.sound.buffers.transmitSize] at fits
  refine ⟨changed, ?_, next, ?_⟩
  · rw [perform_eq present, plays.send_eq, storing]
  · exact stored.carries next.transmitLayout (ball_coded player.role variant) plain fits node

theorem perform_receive_empty (present : system.wire.stations[node]? = some station)
    (hosts : station.Hosts player.running member busy) (empty : member.slot = none) :
    system.perform node player.running.receive = (none, system) := by
  have flag := hosts.slot.flag
  rw [empty, Option.isSome_none] at flag
  rw [perform_eq present, Running.run_receive, flag, if_neg (by simp), Wire.replace_self present]

theorem perform_receive_full (present : system.wire.stations[node]? = some station)
    (hosts : station.Hosts player.running member busy) (full : member.slot.isSome = true) :
    ∃ message changed, system.perform node player.running.receive =
        (some message, ⟨system.wire.replace node (changed, system.wire.pending), system.seats⟩) ∧
      changed.Hosts player.running { member with slot := none } busy := by
  have flag := hosts.slot.flag
  have settled : (station.codeOf player.running.receiveBuffer).isBusy = false := by
    rw [Station.codeOf_eq hosts.receiveLayout, hosts.settled]
  rw [full] at flag
  refine ⟨station.message player.running.receiveBuffer, _, ?_, hosts.read⟩
  rw [perform_eq present, Running.run_receive, if_pos ⟨flag, hosts.sound.patient, settled⟩]

theorem perform_serve_empty (present : system.wire.stations[node]? = some station)
    (hosts : station.Hosts player.running member busy) (empty : member.slot = none)
    (settled : player.replyPending = false) :
    system.perform node player.serve = ((.ok false, player), system) := by
  rw [Player.serve, Player.replyIfPending, settled, if_neg Bool.false_ne_true, Program.done_bind,
    perform_bind, perform_receive_empty present hosts empty]
  rfl

theorem perform_serve_full (present : system.wire.stations[node]? = some station)
    (hosts : station.Hosts player.running member false) (full : member.slot.isSome = true)
    (plays : player.Plays variant) (settled : player.replyPending = false) :
    ∃ changed, system.perform node player.serve =
        ((.ok true, player.count), ⟨system.wire.replace node (changed, system.wire.pending ++
          [changed.outgoing node player.running.transmitBuffer.index]), system.seats⟩) ∧
      changed.Hosts player.running { member with slot := none } true ∧
      (changed.outgoing node player.running.transmitBuffer.index).Carries
        (ball player.role variant) (ballCode variant) := by
  obtain ⟨message, read, receiving, emptied⟩ := perform_receive_full present hosts full
  have bound := (List.getElem?_eq_some_iff.1 present).1
  have placed : (System.mk (system.wire.replace node (read, system.wire.pending))
      system.seats).wire.stations[node]? = some read := system.wire.station_replace _ bound
  have owing : Player.Plays variant { player.count with replyPending := true } := plays
  obtain ⟨changed, sent, next, carries⟩ := perform_send placed
    (show read.Hosts { player.count with replyPending := true : Player }.running _ false from emptied)
    owing
  refine ⟨changed, ?_, next, carries⟩
  rw [Player.serve, Player.replyIfPending, settled, if_neg Bool.false_ne_true, Program.done_bind,
    perform_bind, receiving]
  dsimp only
  rw [perform_bind, Player.reply, perform_bind, sent]
  simp only [Wire.replace_replace]
  rw [← settled]
  rfl

end System

theorem Wire.Calm.replace {wire : Wire} (calm : wire.Calm) {changed : Station}
    (small : changed.time < 65536) (node : Nat) (waiting : List Transfer) :
    (wire.replace node (changed, waiting)).Calm := by
  intro station member
  rcases List.mem_or_eq_of_mem_set member with old | rfl
  · exact calm station old
  · exact small

def Station.Bears (token : Option Token) (role : Role) (running : Running) (station : Station) :
    Prop :=
  ∃ member busy, station.Hosts running member busy ∧
    (busy = true ↔ token = some (.flying role)) ∧
    (member.slot.isSome = true ↔ token = some (.landed role)) ∧
    ∀ arrival, member.slot = some arrival → arrival.overrun = false

namespace Station

variable {token : Option Token} {role : Role} {running : Running} {station : Station}
  {variant : Variant} {transfer : Transfer}

theorem Bears.deliver_own (bears : station.Bears (some (.flying role)) role running)
    {earlier : Settings} (settings : running.settings = PingPong.settings role variant earlier)
    {place : Nat} (sent : transfer = station.outgoing place running.transmitBuffer.index)
    (carries : transfer.Carries (ball role variant) (ballCode variant)) :
    (station.pass transfer false place).Bears (some (.landed role.other)) role running := by
  obtain ⟨member, busy, hosts, sending, full, -⟩ := bears
  rw [sending.mpr rfl] at hosts
  have vacant : member.slot = none := by
    rw [← Option.not_isSome_iff_eq_none, full]
    simp
  have heard := Member.slot_hear_ball (hosts.settings.trans settings) place role
  rw [if_pos rfl, vacant] at heard
  have carried : transfer.Carries (Frame.mk place (ball role variant) (ballCode variant)).draft
    (Frame.mk place (ball role variant) (ballCode variant)).lengthCode := carries
  refine ⟨_, _, hosts.pass_of_sender carried false sent, by simp, ?_, by simp [heard]⟩
  rw [heard]
  simp [role.other_ne]

theorem Bears.deliver_other (bears : station.Bears (some (.flying role.other)) role running)
    {earlier : Settings} (settings : running.settings = PingPong.settings role variant earlier)
    {place : Nat} (apart : place ≠ transfer.sender)
    (carries : transfer.Carries (ball role.other variant) (ballCode variant)) :
    (station.pass transfer false place).Bears (some (.landed role)) role running := by
  obtain ⟨member, busy, hosts, sending, full, -⟩ := bears
  have vacant : member.slot = none := by
    rw [← Option.not_isSome_iff_eq_none, full]
    simp
  have heard := Member.slot_hear_ball (hosts.settings.trans settings) transfer.sender role.other
  rw [if_neg role.other_ne.symm, vacant] at heard
  have carried : transfer.Carries
    (Frame.mk transfer.sender (ball role.other variant) (ballCode variant)).draft
    (Frame.mk transfer.sender (ball role.other variant) (ballCode variant)).lengthCode := carries
  refine ⟨_, _, (hosts.pass_of_other carried false apart).1, ?_, by simp [heard], ?_⟩
  · rw [sending]
    simp [role.other_ne]
  · intro arrival arrived
    rw [if_neg Bool.false_ne_true, heard, Option.some.injEq] at arrived
    rw [← arrived]
    rfl

end Station

namespace Table

variable {ε σ : Role → Type} {table : Table ε σ} {variant : Variant} {game after : Match σ}
  {token : Option Token} {sender : Role}

structure Rally (table : Table ε σ) (variant : Variant) (token : Option Token) (game : Match σ) :
    Prop where
  ready : table.Ready variant game
  calm : game.system.wire.Calm
  role : ∀ role, (game.player role).role = role
  direct : ∀ role, (game.player role).running.settings.loopback = false
  settled : ∀ role, (game.player role).replyPending = false
  bears : ∀ role station, game.system.wire.stations[table.place role]? = some station →
    station.Bears token role (game.player role).running
  flying : ∀ sender, token = some (.flying sender) → ∃ station transfer,
    game.system.wire.stations[table.place sender]? = some station ∧
    game.system.wire.pending = [transfer] ∧
    transfer = station.outgoing (table.place sender)
      (game.player sender).running.transmitBuffer.index ∧
    transfer.Carries (ball sender variant) (ballCode variant)
  idle : (∀ sender, token ≠ some (.flying sender)) → game.system.wire.pending = []
  lead : (game.player .nodeB).received - (game.player .nodeA).received =
    (token.map Token.lead).getD 0

theorem Rally.settings (rally : table.Rally variant token game) (role : Role) :
    ∃ earlier, (game.player role).running.settings = PingPong.settings role variant earlier := by
  obtain ⟨earlier, settings⟩ := rally.ready.plays role
  rw [rally.role role] at settings
  exact ⟨earlier, settings⟩

theorem Rally.apart (rally : table.Rally variant token game) {first second : Role}
    (apart : first ≠ second) : table.place first ≠ table.place second := by
  -- One controller has one holder, and he listens to one identifier only.
  intro same
  have seats := rally.ready.seat first
  rw [same, rally.ready.seat second, Seat.running.injEq] at seats
  obtain ⟨early, left⟩ := rally.settings first
  obtain ⟨late, right⟩ := rally.settings second
  rw [← seats, right] at left
  have ids : second.receiveId = first.receiveId :=
    congrArg (fun settings => settings.buffers.receiveId) left
  revert ids
  rw [Role.eq_other_of_ne apart, Role.receiveId_other]
  exact (second.transmitId_ne_receiveId).symm

theorem Rally.present (rally : table.Rally variant token game) (role : Role) :
    ∃ station, game.system.wire.stations[table.place role]? = some station ∧
      station.Bears token role (game.player role).running := by
  have held : game.system.seat (table.place role) ≠ .gone := by simp [rally.ready.seat role]
  obtain ⟨station, present⟩ := rally.ready.consistent.present held
  exact ⟨station, present, rally.bears role station present⟩

/-! One turn after the other. -/

theorem Rally.deliver (rally : table.Rally variant (some (.flying sender)) game) :
    table.Rally variant (some (.landed sender.other)) (table.turn game .deliverNext) := by
  obtain ⟨station, transfer, present, pending, sent, carries⟩ := rally.flying sender rfl
  obtain ⟨member, busy, hosts, -⟩ := rally.bears sender station present
  have own : transfer.sender = table.place sender := by rw [sent]; rfl
  have sends : game.system.wire.sends transfer.sender = true := by
    simp [Wire.sends, own, present, hosts.serves.running]
  have direct : game.system.wire.loopback transfer.sender = false := by
    simp [Wire.loopback, own, present, hosts.serves.loopback, rally.direct sender]
  have calm := rally.ready.consistent.calm_deliver rally.calm
  have ready := rally.ready.turn .deliverNext
  have lead := rally.lead
  have delivered := Wire.deliverNext_eq pending rally.calm
  rw [direct, if_pos sends] at delivered
  simp only [Table.turn, System.step, delivered] at calm ready ⊢
  refine ⟨ready, calm, rally.role, rally.direct, rally.settled, ?_, by simp, fun _ => rfl, ?_⟩
  · intro role after afterAt
    simp only [List.getElem?_mapIdx, Option.map_eq_some_iff] at afterAt
    obtain ⟨before, beforeAt, rfl⟩ := afterAt
    have bears := rally.bears role before beforeAt
    obtain ⟨earlier, settings⟩ := rally.settings role
    -- The sender hears itself too, but does not listen to its own identifier.
    by_cases same : role = sender
    · subst same
      rw [present, Option.some.injEq] at beforeAt
      subst beforeAt
      exact bears.deliver_own settings sent carries
    · have elsewhere : table.place role ≠ transfer.sender := by
        rw [own]
        exact rally.apart same
      rw [Role.eq_other_of_ne (Ne.symm same)] at bears carries ⊢
      rw [Role.other_other]
      exact bears.deliver_other settings elsewhere carries
  · rw [lead]
    cases sender <;> rfl

theorem Rally.start_second (rally : table.Rally variant token game) :
    table.turn game (.start .nodeB) = game := by
  simp only [Table.turn, Table.start, Player.start, rally.role]
  rfl

theorem Rally.launch (rally : table.Rally variant token game) (ready : table.Ready variant after)
    (still : ∀ other, token ≠ some (.flying other)) (mine : token ≠ some (.landed sender.other))
    {changed : Station} {member : Member} {player : Player}
    (players : after.player = Function.update game.player sender player)
    (wire : after.system.wire = game.system.wire.replace (table.place sender) (changed,
      game.system.wire.pending ++
        [changed.outgoing (table.place sender) (game.player sender).running.transmitBuffer.index]))
    (running : player.running = (game.player sender).running) (role : player.role = sender)
    (settled : player.replyPending = false)
    (hosts : changed.Hosts (game.player sender).running member true) (empty : member.slot = none)
    (carries : (changed.outgoing (table.place sender)
      (game.player sender).running.transmitBuffer.index).Carries
        (ball sender variant) (ballCode variant))
    (lead : (after.player .nodeB).received - (after.player .nodeA).received =
      (Token.flying sender).lead) :
    table.Rally variant (some (.flying sender)) after := by
  obtain ⟨station, present, -⟩ := rally.present sender
  have bound := (List.getElem?_eq_some_iff.1 present).1
  have placed : after.system.wire.stations[table.place sender]? = some changed := by
    rw [wire]
    exact game.system.wire.station_replace _ bound
  have own : after.player sender = player := by rw [players, Function.update_self]
  have others (role : Role) (apart : role ≠ sender) : after.player role = game.player role := by
    rw [players, Function.update_of_ne apart]
  refine ⟨ready, ?_, ?_, ?_, ?_, ?_, ?_, ?_, lead⟩
  · rw [wire]
    refine rally.calm.replace ?_ _ _
    rw [hosts.time]
    exact hosts.small
  · rw [players]
    exact (Function.forall_update_iff game.player fun role player => player.role = role).mpr
      ⟨role, fun other _ => rally.role other⟩
  · rw [players]
    refine (Function.forall_update_iff game.player fun _ player =>
      player.running.settings.loopback = false).mpr ⟨?_, fun other _ => rally.direct other⟩
    rw [running, rally.direct]
  · rw [players]
    exact (Function.forall_update_iff game.player fun _ player => player.replyPending = false).mpr
      ⟨settled, fun other _ => rally.settled other⟩
  · intro other station stationAt
    by_cases same : other = sender
    · subst same
      rw [placed, Option.some.injEq] at stationAt
      subst stationAt
      rw [own, running]
      exact ⟨member, true, hosts, by simp, by simp [empty], by simp [empty]⟩
    · have elsewhere := rally.apart same
      rw [wire, Wire.station_replace_of_ne _ _ elsewhere.symm] at stationAt
      -- The other player keeps what he had: neither a frame to send nor one to answer.
      obtain ⟨holder, busy, held, sending, full, whole⟩ := rally.bears other station stationAt
      rw [others other same]
      refine ⟨holder, busy, held, ?_, ?_, whole⟩
      · rw [sending]
        simp [still other, Ne.symm same]
      · rw [Role.eq_other_of_ne same] at full ⊢
        rw [full]
        simp [mine]
  · intro other launched
    rw [Option.some.injEq, Token.flying.injEq] at launched
    subst launched
    rw [own, running]
    refine ⟨changed, _, placed, ?_, rfl, carries⟩
    simp only [wire, Wire.replace, rally.idle still, List.nil_append]
  · intro gone
    exact absurd rfl (gone sender)

theorem Rally.start (rally : table.Rally variant none game) :
    ∃ after, table.start game .nodeA = (.ok (), after) ∧
      table.Rally variant (some (.flying .nodeA)) after := by
  obtain ⟨station, present, member, busy, hosts, sending, full, -⟩ := rally.present .nodeA
  have ready := rally.ready.turn (.start .nodeA)
  have free : busy = false := by simpa using sending
  subst free
  obtain ⟨changed, sent, next, carries⟩ :=
    System.perform_send present hosts (rally.ready.plays .nodeA)
  have started : (game.player .nodeA).start = (game.player .nodeA).send := by
    simp only [Player.start, rally.role]
  rw [rally.role] at carries
  simp only [Table.turn, Table.start, started, sent] at ready ⊢
  refine ⟨_, rfl, rally.launch ready (by simp) (by simp) (Function.update_eq_self ..).symm rfl rfl
    (rally.role .nodeA) (rally.settled .nodeA) next ?_ carries rally.lead⟩
  rw [← Option.not_isSome_iff_eq_none, full]
  simp

theorem Rally.poll_idle (rally : table.Rally variant token game) {role : Role}
    (elsewhere : token ≠ some (.landed role)) :
    ∃ after, table.poll game role = (.ok false, after) ∧ table.Rally variant token after := by
  obtain ⟨station, present, member, busy, hosts, -, full, -⟩ := rally.present role
  obtain ⟨lamp, polled⟩ := table.poll_eq game role
  have ready := rally.ready.turn (.poll role)
  have empty : member.slot = none := by
    rw [← Option.not_isSome_iff_eq_none, full]
    exact elsewhere
  rw [System.perform_serve_empty present hosts empty (rally.settled role)] at polled
  dsimp only at polled
  rw [Function.update_eq_self] at polled
  simp only [Table.turn, polled] at ready
  exact ⟨_, polled, ready, rally.calm, rally.role, rally.direct, rally.settled, rally.bears,
    rally.flying, rally.idle, rally.lead⟩

theorem Rally.poll {role : Role} (rally : table.Rally variant (some (.landed role)) game) :
    ∃ after, table.poll game role = (.ok true, after) ∧
      table.Rally variant (some (.flying role)) after := by
  obtain ⟨station, present, member, busy, hosts, sending, full, -⟩ := rally.present role
  have ready := rally.ready.turn (.poll role)
  have free : busy = false := by simpa using sending
  subst free
  obtain ⟨changed, served, next, carries⟩ := System.perform_serve_full present hosts (full.mpr rfl)
    (rally.ready.plays role) (rally.settled role)
  obtain ⟨lamp, polled⟩ := table.poll_eq game role
  rw [served] at polled
  rw [rally.role] at carries
  simp only [Table.turn, polled] at ready
  refine ⟨_, polled, rally.launch ready (by simp) ?_ rfl rfl rfl (rally.role role)
    (rally.settled role) next rfl carries ?_⟩
  · simp [role.other_ne.symm]
  · have lead := rally.lead
    cases role
    · change (game.player .nodeB).received - ((game.player .nodeA).received + 1) = 0
      have lead : (game.player .nodeB).received - (game.player .nodeA).received = 1 := lead
      grind
    · change (game.player .nodeB).received + 1 - (game.player .nodeA).received = 1
      have lead : (game.player .nodeB).received - (game.player .nodeA).received = 0 := lead
      grind

/-! The whole match. -/

theorem Rally.turn (rally : table.Rally variant token game) {turn : Turn}
    (later : turn ≠ .start .nodeA) :
    table.Rally variant (token.map fun token => token.after turn) (table.turn game turn) := by
  cases turn with
  | deliverNext =>
      have idle (still : ∀ sender, token ≠ some (.flying sender)) :
          table.turn game .deliverNext = game := by
        simp only [Table.turn, System.step, Wire.deliverNext_none (rally.idle still)]
      rcases token with - | sender | receiver
      · rwa [idle (by simp)]
      · exact rally.deliver
      · rwa [idle (by simp)]
  | start role =>
      cases role with
      | nodeA => exact absurd rfl later
      | nodeB =>
          rw [rally.start_second]
          rcases token with - | sender | receiver <;> exact rally
  | poll role =>
      by_cases here : token = some (.landed role)
      · subst here
        obtain ⟨after, polled, next⟩ := rally.poll
        simpa [Table.turn, polled, Token.after] using next
      · obtain ⟨after, polled, next⟩ := rally.poll_idle here
        have stays : (token.map fun token => token.after (.poll role)) = token := by
          rcases token with - | sender | receiver
          · rfl
          · rfl
          · have other : role ≠ receiver := by
              rintro rfl
              exact here rfl
            simp [Token.after, other]
        rw [stays]
        simpa only [Table.turn, polled] using next

theorem Rally.play (rally : table.Rally variant token game) {turns : List Turn}
    (later : Turn.start .nodeA ∉ turns) :
    table.Rally variant (token.map fun token => turns.foldl Token.after token)
      (table.play game turns) := by
  induction turns generalizing game token with
  | nil => simpa [Table.play] using rally
  | cons turn rest ih =>
      have next := rally.turn fun same => later (same ▸ List.mem_cons_self ..)
      have final := ih next fun member => later (List.mem_cons_of_mem _ member)
      simpa [Table.play, Function.comp_def] using final

/-! What can be seen of the token. -/

theorem Rally.flagged (rally : table.Rally variant token game) (role : Role) :
    game.system.Flagged (table.place role) ↔ token = some (.landed role) := by
  obtain ⟨station, present, member, busy, hosts, -, full, -⟩ := rally.present role
  rw [← full, ← hosts.slot.flag]
  constructor
  · rintro ⟨running, other, seat, otherAt, flag⟩
    rw [rally.ready.seat role, Seat.running.injEq] at seat
    rw [present, Option.some.injEq] at otherAt
    subst seat otherAt
    exact flag
  · intro flag
    exact ⟨_, station, rally.ready.seat role, present, flag⟩

theorem Rally.shows {token : Token} (rally : table.Rally variant (some token) game) (other : Token) :
    table.Shows game other ↔ other = token := by
  cases other with
  | landed receiver =>
      rw [Shows, rally.flagged, Option.some.injEq, eq_comm]
  | flying player =>
      rw [Shows]
      match token with
      | .landed receiver =>
          rw [rally.idle (by simp)]
          simp
      | .flying sender =>
          obtain ⟨station, transfer, -, pending, sent, -⟩ := rally.flying sender rfl
          have own : transfer.sender = table.place sender := by rw [sent]; rfl
          rw [pending, List.map_singleton, own, List.count_singleton]
          by_cases same : player = sender
          · simp [same]
          · simp [same, rally.apart (Ne.symm same)]

theorem Rally.whole (rally : table.Rally variant token game) (role : Role) {message : Message}
    (received : (game.system.step (.receive (table.place role))).1 = .message message) :
    message.overrun = false := by
  obtain ⟨station, present, member, busy, hosts, -, -, whole⟩ := rally.present role
  have active := rally.ready.consistent.fits _ station present
  rw [rally.ready.seat role] at active
  obtain ⟨answer, after, receiving, shows, -⟩ :=
    (hosts.offers active).receive (table.place role) game.system.wire.pending
  rw [System.step_receive (rally.ready.seat role), System.perform_eq present, receiving] at received
  dsimp only at received
  rw [received] at shows
  cases slot : member.slot with
  | none =>
      rw [slot] at shows
      cases shows
  | some arrival =>
      rw [slot] at shows
      obtain ⟨shown, same, overrun⟩ := shows
      cases same
      rw [overrun, whole arrival slot]

theorem Rally.orderly {token : Token} (rally : table.Rally variant (some token) game) :
    table.Orderly game token where
  shows := rally.shows
  alone := by
    match token with
    | .landed receiver => simp [rally.idle]
    | .flying sender =>
        obtain ⟨station, transfer, -, pending, -⟩ := rally.flying sender rfl
        simp [pending]
  lead := rally.lead
  answered := rally.settled
  polls role := by
    by_cases here : some token = some (.landed role)
    · rw [Option.some.injEq] at here
      subst here
      obtain ⟨after, polled, -⟩ := rally.poll
      exact ⟨true, by rw [polled], by simp [rally.flagged]⟩
    · obtain ⟨after, polled, -⟩ := rally.poll_idle here
      exact ⟨false, by rw [polled], by simpa [rally.flagged] using here⟩
  whole role _ := rally.whole role

theorem rally_opening {before : List Action} {running : Role → Running}
    {lamp : (role : Role) → σ role} (silent : ∀ action ∈ before, action.Silent)
    (seated : ∀ role, (System.empty.after before).seat (table.place role) = .running (running role))
    (built : ∀ role, ∃ earlier, (running role).settings = settings role variant earlier ∧
      earlier.loopback = false) :
    table.Rally variant none (opening (System.empty.after before) running lamp) := by
  have rests (role : Role) := (System.rests_empty (table.place role)).run before silent
  refine ⟨⟨System.consistent_empty.run before, seated, ?_⟩, System.calm_silent silent, fun _ => rfl,
    ?_, fun _ => rfl, ?_, by simp, fun _ => (rests .nodeA).idle, UInt32.sub_self _⟩
  · intro role
    obtain ⟨earlier, settings, -⟩ := built role
    exact ⟨earlier, settings⟩
  · intro role
    obtain ⟨earlier, settings, direct⟩ := built role
    change (running role).settings.loopback = false
    rw [settings]
    exact direct
  · intro role station present
    have fresh := (rests role).fresh station present
    rw [seated role] at fresh
    cases fresh with
    | running hosts flags _ =>
        have empty := hosts.slot_of_flags flags
        exact ⟨_, false, hosts, by simp, by simp [empty], by simp [empty]⟩

/-- Two controllers on a wire on which nobody has sent yet, both in service for an exchange without
loopback, play a match. Nothing happens in it until the first player starts, and he can. From then on the
frame of the match goes back and forth as the turns say, whatever their order. -/
theorem token_conserved (table : Table ε σ) (variant : Variant) (before : List Action)
    (running : Role → Running) (lamp : (role : Role) → σ role)
    (silent : ∀ action ∈ before, action.Silent)
    (seated : ∀ role, (System.empty.after before).seat (table.place role) = .running (running role))
    (built : ∀ role, ∃ earlier, (running role).settings = settings role variant earlier ∧
      earlier.loopback = false)
    (early late : List Turn) (once : Turn.start .nodeA ∉ early ++ late) :
    let game := table.play (opening (System.empty.after before) running lamp) early
    (table.start game .nodeA).1 = .ok () ∧
      table.Orderly (table.play game (.start .nodeA :: late))
        (late.foldl Token.after (.flying .nodeA)) := by
  rw [List.mem_append, not_or] at once
  have fresh : table.Rally variant none (opening (System.empty.after before) running lamp) :=
    rally_opening silent seated built
  have waiting := fresh.play once.1
  obtain ⟨after, started, begun⟩ := waiting.start
  have played := begun.play once.2
  refine ⟨by rw [started], ?_⟩
  have result : table.turn (table.play (opening (System.empty.after before) running lamp) early)
      (.start .nodeA) = after := by
    rw [Table.turn, started]
  rw [Table.play, List.foldl_cons, result]
  exact played.orderly

theorem silent_exchange (loopback : Bool) : ∀ action ∈ exchange loopback, action.Silent := by
  simp [exchange, Action.Silent]

theorem exchange_rally :
    let before := exchange false
    let game := opening (System.empty.after before) (classic false) fun _ => 0
    (∀ action ∈ before, action.Silent) ∧
      (∀ role, (System.empty.after before).seat (counters.place role) =
        .running (classic false role)) ∧
      (∀ role, ∃ earlier, (classic false role).settings = settings role .classic earlier ∧
        earlier.loopback = false) ∧
      counters.Orderly (counters.play game [.start .nodeA, .deliverNext, .poll .nodeB, .deliverNext])
        (.landed .nodeA) := by
  have built : ∀ role, ∃ earlier, (classic false role).settings = settings role .classic earlier ∧
      earlier.loopback = false := by
    intro role
    refine ⟨earlier false role, rfl, ?_⟩
    cases role <;> rfl
  have seated := exchange_seats false
  have played := token_conserved counters .classic (exchange false) (classic false) (fun _ => 0)
    (silent_exchange false) seated built [] [.deliverNext, .poll .nodeB, .deliverNext] (by decide)
  exact ⟨silent_exchange false, seated, built, played.2⟩

theorem loopback_quiet :
    let game := opening (System.empty.after (exchange true)) (classic true) fun _ => 0
    let last := counters.play game [.start .nodeA, .deliverNext]
    (counters.start game .nodeA).1 = .ok () ∧ last.system.wire.pending = [] ∧
      last.system.seats = [.running (classic true .nodeA), .running (classic true .nodeB)] ∧
      last.system.wire.stations.map (fun station => flagSet 4 (station.memory.get .iflag1)) =
        [false, false] := by
  decide +kernel

/-- If the first player is left in loopback mode, his frame reaches nobody. -/
theorem loopback_loses :
    let before := exchange true
    let game := opening (System.empty.after before) (classic true) fun _ => 0
    (∀ action ∈ before, action.Silent) ∧
      (∀ role, (System.empty.after before).seat (counters.place role) =
        .running (classic true role)) ∧
      (∀ role, ∃ earlier, (classic true role).settings = settings role .classic earlier) ∧
      (counters.start game .nodeA).1 = .ok () ∧
      ∀ token, ¬counters.Shows (counters.play game [.start .nodeA, .deliverNext]) token := by
  obtain ⟨started, pending, seats, flags⟩ := loopback_quiet
  have built : ∀ role, ∃ earlier, (classic true role).settings = settings role .classic earlier :=
    fun role => ⟨_, rfl⟩
  refine ⟨silent_exchange true, exchange_seats true, built, started, ?_⟩
  intro token shows
  cases token with
  | flying sender =>
      rw [Shows, pending] at shows
      simp at shows
  | landed receiver =>
      obtain ⟨running, station, seat, present, flag⟩ := shows
      have lowered := congrArg (fun flags => flags[counters.place receiver]?) flags
      simp only [List.getElem?_map, present, Option.map_some] at lowered
      rw [System.seat, seats] at seat
      cases receiver
      · cases seat
        exact absurd (flag.symm.trans (Option.some.inj lowered)) (by decide)
      · cases seat
        exact absurd (flag.symm.trans (Option.some.inj lowered)) (by decide)

end Table

end BufferedCan
