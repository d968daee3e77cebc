import BufferedCan.Exchange.PingPong
import BufferedCan.Proofs.Network.Consistency
import BufferedCan.Proofs.Network.Member
import Mathlib.Logic.Function.Basic

/-! Ping-pong between two nodes of a network. A match goes on turn by turn: a delivery, the start of a
player or a poll. With an indicator that never fails a poll does no more than serve the controller: it
sends what is owed, takes a frame, and answers it. -/

namespace BufferedCan

open PingPong

structure Table (ε σ : Role → Type) where
  place : Role → Nat
  device : (role : Role) → Handler (indicator (ε role)) (σ role)
  steady : ∀ role state, (device role () state).1 = .ok ()

structure Match (σ : Role → Type) where
  system : System
  player : Role → Player
  lamp : (role : Role) → σ role

inductive Turn
  | deliverNext
  | start (role : Role)
  | poll (role : Role)
  deriving DecidableEq

theorem PingPong.settings_of_start {σ : Type} (handler : Handler registers σ) {role : Role}
    {variant : Variant} {frozen : Frozen} {running : Running} {state : σ}
    (built : ((PingPong.start role variant frozen).run handler state).1 = .ok (.ok running)) :
    running.settings = settings role variant frozen.settings :=
  Frozen.settings_of_start handler built

namespace PingPong

def ball (role : Role) (variant : Variant) : Draft where
  id := .standard role.transmitId
  content := match variant with
    | .classic => .data payload
    | .flexible => .flexible (payload ++ List.replicate (64 - payload.length) 0) true false

def ballCode : Variant → Nat
  | .classic => 8
  | .flexible => 15

theorem ball_coded (role : Role) (variant : Variant) :
    Length.code? (ball role variant).content.isFd (ball role variant).content.length =
      some (ballCode variant) := by
  cases variant <;> rfl

theorem ball_taken (role : Role) {variant : Variant} {settings : Settings}
    (mode : settings.mode = variant.mode) :
    settings.refusal? (ball role variant).content
      (Length.ofCode (ball role variant).content.isFd (ballCode variant)) = none := by
  cases variant <;> simp only [Settings.refusal?, mode] <;> rfl

end PingPong

namespace Player

def Plays (variant : Variant) (player : Player) : Prop :=
  ∃ earlier, player.running.settings = settings player.role variant earlier

theorem Plays.mode {variant : Variant} {player : Player} (plays : player.Plays variant) :
    player.running.settings.mode = variant.mode := by
  obtain ⟨earlier, settings⟩ := plays
  rw [settings]
  rfl

theorem Plays.send_eq {variant : Variant} {player : Player} (plays : player.Plays variant) :
    player.send =
      player.running.transmit ((ball player.role variant).message (ballCode variant)) := by
  have drafted : player.running.draft (.standard player.role.transmitId) player.payload =
      ball player.role variant := by
    cases variant <;> simp only [Running.draft, payload, plays.mode] <;> rfl
  rw [send, Running.transmitPayload, drafted, Running.transmitDraft, Draft.encode?_eq, ball_coded]
  rfl

theorem Plays.plain {variant : Variant} {player : Player} (plays : player.Plays variant)
    (sound : player.running.Sound) :
    player.running.objection? ((ball player.role variant).message (ballCode variant)) = none := by
  rw [Running.objection?_eq sound _ (Length.code?_lt (ball_coded player.role variant)),
    ball_taken player.role plays.mode]

def serve (player : Player) : Program registers (Except TransmitError Bool × Player) := do
  match ← player.replyIfPending with
  | (.error error, player) => return (.error error, player)
  | (.ok (), player) =>
    match ← player.running.receive with
    | none => return (.ok false, player)
    | some _ =>
      match ← { player.count with replyPending := true }.reply with
      | (.error error, player) => return (.error error, player)
      | (.ok (), player) => return (.ok true, player)

variable {ε σ τ : Type}

theorem run_indicate {device : Handler (indicator ε) σ}
    (steady : ∀ state, (device () state).1 = .ok ()) (player : Player) (light : σ) :
    (player.indicate.run device light).1 = .ok () := by
  unfold indicate
  split
  · exact steady light
  · rfl

theorem run_poll (handler : Handler registers τ) {device : Handler (indicator ε) σ}
    (steady : ∀ state, (device () state).1 = .ok ()) (player : Player) (state : τ) (light : σ) :
    ∃ after, player.poll.run (handler.both device) (state, light) =
      (((player.serve.run handler state).1.1.mapError .transmit,
        (player.serve.run handler state).1.2), (player.serve.run handler state).2, after) := by
  rw [poll, serve, Program.run_bind, Program.run_onLeft, Program.run_bind]
  dsimp only
  rcases player.replyIfPending.run handler state with ⟨⟨_ | _, player⟩, state⟩
  · exact ⟨light, rfl⟩
  · dsimp only
    rw [Program.run_bind, Program.run_onLeft, Program.run_bind]
    dsimp only
    rcases player.running.receive.run handler state with ⟨_ | message, state⟩
    · exact ⟨light, rfl⟩
    · dsimp only
      rw [Program.run_bind, Program.run_onRight, run_indicate steady, Program.run_bind]
      dsimp only
      rw [Program.run_bind, Program.run_onLeft]
      dsimp only
      rcases Program.run handler (reply { player.count with replyPending := true }) state with
        ⟨⟨_ | _, player⟩, state⟩
      · exact ⟨_, rfl⟩
      · exact ⟨_, rfl⟩

end Player

namespace Table

variable {ε σ : Role → Type} (table : Table ε σ)

def start (game : Match σ) (role : Role) : Except (Refusal TransmitError) Unit × Match σ :=
  match game.system.perform (table.place role) (game.player role).start with
  | (outcome, system) => (outcome, { game with system := system })

def poll (game : Match σ) (role : Role) : Except (PlayerError (ε role)) Bool × Match σ :=
  match (game.player role).poll.run ((Wire.access (table.place role)).both (table.device role))
      (game.system.wire, game.lamp role) with
  | ((outcome, player), wire, lamp) =>
    (outcome, { system := { game.system with wire := wire }
                player := Function.update game.player role player
                lamp := Function.update game.lamp role lamp })

def turn (game : Match σ) : Turn → Match σ
  | .deliverNext => { game with system := (game.system.step .deliverNext).2 }
  | .start role => (table.start game role).2
  | .poll role => (table.poll game role).2

def play (game : Match σ) (turns : List Turn) : Match σ := turns.foldl table.turn game

def opening (system : System) (running : Role → Running) (lamp : (role : Role) → σ role) :
    Match σ where
  system := system
  player role := .new role (running role)
  lamp := lamp

theorem poll_eq (game : Match σ) (role : Role) :
    ∃ lamp, table.poll game role =
      (((game.system.perform (table.place role) (game.player role).serve).1.1.mapError .transmit,
        { system := (game.system.perform (table.place role) (game.player role).serve).2
          player := Function.update game.player role
            (game.system.perform (table.place role) (game.player role).serve).1.2
          lamp := lamp })) := by
  obtain ⟨after, polled⟩ := (game.player role).run_poll (Wire.access (table.place role))
    (table.steady role) game.system.wire (game.lamp role)
  refine ⟨Function.update game.lamp role after, ?_⟩
  simp only [poll, polled, System.perform]

end Table

/-- The settings before those of the exchange. The first player may be left in loopback mode, in which it
hears itself alone. -/
def earlier (loopback : Bool) : PingPong.Role → Settings
  | .nodeA => { Settings.ofBitRate 500000 with loopback := loopback }
  | .nodeB => .ofBitRate 500000

def exchange (loopback : Bool) : List Action :=
  [.attach .reset .oscillator 500000, .attach .reset .oscillator 500000,
    .adjust 0 (settings .nodeA .classic (earlier loopback .nodeA)), .finalize 0,
    .adjust 1 (settings .nodeB .classic (earlier loopback .nodeB)), .finalize 1]

def classic (loopback : Bool) (role : Role) : Running where
  clock := .oscillator
  settings := settings role .classic (earlier loopback role)
  transmitBuffer := ⟨.bytes8, 0, by decide⟩
  receiveBuffer := ⟨.bytes8, 4, by decide⟩

def counters : Table (fun _ => Empty) (fun _ => Nat) where
  place := fun
    | .nodeA => 0
    | .nodeB => 1
  device _ := fun _ toggles => (.ok (), toggles + 1)
  steady _ _ := rfl

deriving instance DecidableEq for Buffer, Running, Seat

theorem seats_exchange (loopback : Bool) : (System.empty.after (exchange loopback)).seats =
    [.running (classic loopback .nodeA), .running (classic loopback .nodeB)] := by
  cases loopback <;> decide +kernel

theorem exchange_seats (loopback : Bool) (role : PingPong.Role) :
    (System.empty.after (exchange loopback)).seat (counters.place role) =
      .running (classic loopback role) := by
  rw [System.seat, seats_exchange]
  cases role <;> rfl

/-! The parts of a poll are actions of the node. -/

namespace System

variable {system : System} {node : Nat}

theorem perform_bind {α β : Type} (system : System) (node : Nat) (program : Program registers α)
    (next : α → Program registers β) :
    system.perform node (program >>= next) =
      (system.perform node program).2.perform node (next (system.perform node program).1) := by
  simp only [perform, Program.run_bind]

theorem perform_done {α : Type} (system : System) (node : Nat) (value : α) :
    system.perform node (.done value) = (value, system) := rfl

theorem step_send {player : Player} (seat : system.seat node = .running player.running) :
    system.step (.send node (.standard player.role.transmitId) player.payload) =
      (.ofTransmit (system.perform node player.send).1, (system.perform node player.send).2) := by
  simp only [step, call, seat]
  rfl

theorem step_receive {running : Running} (seat : system.seat node = .running running) :
    system.step (.receive node) =
      (.ofReceive (system.perform node running.receive).1,
        (system.perform node running.receive).2) := by
  simp only [step, call, seat]

theorem seat_perform {α : Type} (system : System) (node : Nat) (program : Program registers α)
    (other : Nat) : (system.perform node program).2.seat other = system.seat other := rfl

end System

end BufferedCan
