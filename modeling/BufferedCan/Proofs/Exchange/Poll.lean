import BufferedCan.Exchange.PingPong
import BufferedCan.Proofs.Exchange.Retrieval
import Mathlib.Data.List.Basic

/-! What a poll asks of a controller that may show anything and of an indicator that may fail at any
call. The answer that is owed from before comes first, then a look for a frame. A frame is counted, the
indicator is toggled if it is its turn, and only then is the answer to the frame noted and tried. If
the indicator fails the poll ends in between, and nobody remembers that answer. -/

namespace BufferedCan

open PingPong

variable {ε : Type}

/-- The access by which a frame is taken out of the receive buffer. -/
def Settings.clearing (settings : Settings) : Event registers :=
  ⟨.write Register.iflag1.offset (flagWord settings.buffers.receive), ()⟩

def toggled (answer : Except ε Unit) : Event (registers.both (indicator ε)) :=
  Event.onRight ⟨(), answer⟩

theorem Event.onLeft_injective {left right : Interface} :
    Function.Injective (Event.onLeft : Event left → Event (left.both right)) := by
  rintro ⟨call, reply⟩ ⟨other, answer⟩ same
  obtain ⟨calls, replies⟩ := Event.mk.inj same
  cases Sum.inl.inj calls
  cases replies
  rfl

namespace Player

def draft (player : Player) : Draft :=
  player.running.draft (.standard player.role.transmitId) player.payload

def Sends (player : Player) (trace : List (Event registers))
    (outcome : Except (Refusal TransmitError) Unit) : Prop :=
  ∃ message, player.draft.encode? = some message ∧
    player.running.Transmission player.draft message trace outcome

/-- What is done about an answer that is owed from before; the value says whether it is owed still. -/
inductive Backlog (player : Player) : List (Event registers) → Bool → Prop
  | nothing (clear : player.replyPending = false) : Backlog player [] false
  | answered {trace : List (Event registers)} (owed : player.replyPending = true)
      (sent : player.send.Runs trace (.ok ())) : Backlog player trace false
  | held {trace : List (Event registers)} (owed : player.replyPending = true)
      (blocked : player.send.Runs trace (.error .wouldBlock)) : Backlog player trace true

def glow (player : Player) : List (Event (registers.both (indicator ε))) :=
  if player.count.togglesNow then [toggled (.ok ())] else []

/-- What becomes of the answer to a frame that was taken: what the poll does after that, how it ends and
whether an answer is owed then. -/
inductive Fate (player : Player) (held : Bool) :
    List (Event (registers.both (indicator ε))) → Except (PlayerError ε) Bool → Bool → Prop
  | answered {last : List (Event registers)} (sent : player.send.Runs last (.ok ())) :
      Fate player held (player.glow ++ last.map .onLeft) (.ok true) false
  | waiting {last : List (Event registers)}
      (blocked : player.send.Runs last (.error .wouldBlock)) :
      Fate player held (player.glow ++ last.map .onLeft) (.ok true) true
  | refused {last : List (Event registers)} {error : TransmitError}
      (failed : player.send.Runs last (.error (.failed error))) :
      Fate player held (player.glow ++ last.map .onLeft) (.error (.transmit error)) true
  | forgotten {error : ε} (due : player.count.togglesNow = true) :
      Fate player held [toggled (.error error)] (.error (.indicator error)) held

def settle (player : Player) (frames : UInt32) (owed : Bool) : Player :=
  { player with received := player.received + frames, replyPending := owed }

inductive Course (player : Player) :
    List (Event (registers.both (indicator ε))) → Except (PlayerError ε) Bool → Player → Prop
  | refused {early : List (Event registers)} {error : TransmitError}
      (owed : player.replyPending = true)
      (failed : player.send.Runs early (.error (.failed error))) :
      Course player (early.map .onLeft) (.error (.transmit error)) player
  | idle {early looks : List (Event registers)} {held : Bool} (backlog : player.Backlog early held)
      (nothing : player.running.receive.Runs looks none) :
      Course player (early.map .onLeft ++ looks.map .onLeft) (.ok false) (player.settle 0 held)
  | taken {early looks : List (Event registers)} {held owed : Bool} {message : Message}
      {after : List (Event (registers.both (indicator ε)))}
      {outcome : Except (PlayerError ε) Bool} (backlog : player.Backlog early held)
      (took : player.running.receive.Runs looks (some message))
      (fate : player.Fate held after outcome owed) :
      Course player (early.map .onLeft ++ (looks.map .onLeft ++ after)) outcome
        (player.settle 1 owed)

variable {player : Player} {trace : List (Event registers)}

theorem settle_zero (player : Player) (owed : Bool) :
    player.settle 0 owed = { player with replyPending := owed } := by
  rw [settle, UInt32.add_zero]

theorem settle_self {owed : Bool} (pending : player.replyPending = owed) :
    player.settle 0 owed = player := by
  rw [settle_zero, ← pending]

theorem runs_reply {result : Except TransmitError Unit × Player}
    (ran : player.reply.Runs trace result) :
    player.send.Runs trace (.ok ()) ∧ result = (.ok (), { player with replyPending := false }) ∨
    player.send.Runs trace (.error .wouldBlock) ∧ result = (.ok (), player) ∨
    ∃ error, player.send.Runs trace (.error (.failed error)) ∧ result = (.error error, player) := by
  obtain ⟨first, rest, outcome, rfl, sent, onward⟩ := Program.runs_bind_iff.1 ran
  rcases outcome with (_ | error) | ⟨⟩
  · obtain ⟨rfl, rfl⟩ := Program.runs_done_iff.1 onward
    rw [List.append_nil]
    exact .inr (.inl ⟨sent, rfl⟩)
  · obtain ⟨rfl, rfl⟩ := Program.runs_done_iff.1 onward
    rw [List.append_nil]
    exact .inr (.inr ⟨error, sent, rfl⟩)
  · obtain ⟨rfl, rfl⟩ := Program.runs_done_iff.1 onward
    rw [List.append_nil]
    exact .inl ⟨sent, rfl⟩

theorem runs_replyIfPending {result : Except TransmitError Unit × Player}
    (ran : player.replyIfPending.Runs trace result) :
    (∃ held, player.Backlog trace held ∧ result = (.ok (), player.settle 0 held)) ∨
    ∃ error, player.replyPending = true ∧ player.send.Runs trace (.error (.failed error)) ∧
      result = (.error error, player) := by
  unfold replyIfPending at ran
  cases owed : player.replyPending with
  | false =>
      rw [owed] at ran
      obtain ⟨rfl, rfl⟩ := Program.runs_done_iff.1 ran
      exact .inl ⟨false, .nothing owed, by rw [settle_self owed]⟩
  | true =>
      rw [owed] at ran
      rcases runs_reply ran with ⟨sent, rfl⟩ | ⟨blocked, rfl⟩ | ⟨error, failed, rfl⟩
      · exact .inl ⟨false, .answered owed sent, by rw [settle_zero]⟩
      · exact .inl ⟨true, .held owed blocked, by rw [settle_self owed]⟩
      · exact .inr ⟨error, rfl, failed, rfl⟩

theorem runs_indicate {lit : List (Event (indicator ε))} {answer : Except ε Unit}
    (ran : player.indicate.Runs lit answer) :
    player.togglesNow = false ∧ lit = [] ∧ answer = .ok () ∨
    player.togglesNow = true ∧ lit = [⟨(), answer⟩] := by
  unfold indicate at ran
  cases due : player.togglesNow with
  | false =>
      rw [due] at ran
      obtain ⟨rfl, rfl⟩ := Program.runs_done_iff.1 ran
      exact .inl ⟨rfl, rfl, rfl⟩
  | true =>
      rw [due] at ran
      exact .inr ⟨rfl, Program.runs_call_iff.1 ran⟩

def react (player : Player) :
    Program (registers.both (indicator ε)) (Except (PlayerError ε) Bool × Player) := do
  match ← player.indicate.onRight with
  | .error error => return (.error (.indicator error), player)
  | .ok () =>
    match ← { player with replyPending := true }.reply.onLeft with
    | (.error error, player) => return (.error (.transmit error), player)
    | (.ok (), player) => return (.ok true, player)

theorem runs_react {held : Bool} {trace : List (Event (registers.both (indicator ε)))}
    {result : Except (PlayerError ε) Bool × Player}
    (ran : (player.settle 0 held).count.react.Runs trace result) :
    ∃ outcome owed, player.Fate held trace outcome owed ∧
      result = (outcome, player.settle 1 owed) := by
  have counted (owed : Bool) :
      { (player.settle 0 held).count with replyPending := owed } = player.settle 1 owed := by
    simp only [count, settle, UInt32.add_zero]
  have due : (player.settle 0 held).count.togglesNow = player.count.togglesNow := by
    simp only [togglesNow, count, settle, UInt32.add_zero]
  obtain ⟨lit, rest, answer, rfl, lighting, onward⟩ := Program.runs_bind_iff.1 ran
  obtain ⟨glow, rfl, indicated⟩ := Program.runs_onRight lighting
  have shining := runs_indicate indicated
  rw [due] at shining
  rcases answer with error | ⟨⟩
  · obtain ⟨rfl, rfl⟩ := Program.runs_done_iff.1 onward
    rcases shining with ⟨-, -, absent⟩ | ⟨turn, rfl⟩
    · cases absent
    · refine ⟨_, held, .forgotten turn, ?_⟩
      rw [← counted held]
      rfl
  · have lit : glow.map Event.onRight = player.glow := by
      unfold Player.glow
      rcases shining with ⟨turn, rfl, -⟩ | ⟨turn, rfl⟩
      · rw [turn]
        rfl
      · rw [turn]
        rfl
    obtain ⟨last, nothing, replied, rfl, replying, ended⟩ := Program.runs_bind_iff.1 onward
    obtain ⟨own, rfl, reply⟩ := Program.runs_onLeft replying
    rw [lit]
    rw [counted] at reply
    rcases runs_reply reply with ⟨sent, rfl⟩ | ⟨blocked, rfl⟩ | ⟨error, failed, rfl⟩
    · obtain ⟨rfl, rfl⟩ := Program.runs_done_iff.1 ended
      rw [List.append_nil]
      exact ⟨_, false, .answered sent, rfl⟩
    · obtain ⟨rfl, rfl⟩ := Program.runs_done_iff.1 ended
      rw [List.append_nil]
      exact ⟨_, true, .waiting blocked, rfl⟩
    · obtain ⟨rfl, rfl⟩ := Program.runs_done_iff.1 ended
      rw [List.append_nil]
      exact ⟨_, true, .refused failed, rfl⟩

theorem runs_poll {trace : List (Event (registers.both (indicator ε)))}
    {outcome : Except (PlayerError ε) Bool} {next : Player}
    (ran : player.poll.Runs trace (outcome, next)) : player.Course trace outcome next := by
  obtain ⟨first, rest, early, rfl, opening, onward⟩ := Program.runs_bind_iff.1 ran
  obtain ⟨own, rfl, owing⟩ := Program.runs_onLeft opening
  rcases runs_replyIfPending owing with ⟨held, backlog, rfl⟩ | ⟨error, owed, failed, rfl⟩
  · obtain ⟨second, later, taken, rfl, looking, finish⟩ := Program.runs_bind_iff.1 onward
    obtain ⟨looks, rfl, received⟩ := Program.runs_onLeft looking
    cases taken with
    | none =>
        obtain ⟨rfl, same⟩ := Program.runs_done_iff.1 finish
        obtain ⟨rfl, rfl⟩ := Prod.mk.inj same
        rw [List.append_nil]
        exact .idle backlog received
    | some message =>
        obtain ⟨outcome, owed, fate, same⟩ := runs_react finish
        obtain ⟨rfl, rfl⟩ := Prod.mk.inj same
        exact .taken backlog received fate
  · obtain ⟨rfl, same⟩ := Program.runs_done_iff.1 onward
    obtain ⟨rfl, rfl⟩ := Prod.mk.inj same
    rw [List.append_nil]
    exact .refused owed failed

theorem exists_encode?_draft (player : Player) :
    ∃ message, player.draft.encode? = some message := by
  cases mode : player.running.settings.mode with
  | classic =>
      refine ⟨player.draft.message 8, ?_⟩
      simp only [Draft.encode?_eq, draft, Running.draft, payload, mode]
      rfl
  | flexible rate =>
      refine ⟨player.draft.message 15, ?_⟩
      simp only [Draft.encode?_eq, draft, Running.draft, payload, mode]
      rfl

theorem sends_of_runs (sound : player.running.Sound)
    {outcome : Except (Refusal TransmitError) Unit} (ran : player.send.Runs trace outcome) :
    player.Sends trace outcome := by
  obtain ⟨message, encoded⟩ := player.exists_encode?_draft
  refine ⟨message, encoded, Running.runs_transmit sound encoded ?_⟩
  have sent : player.send = player.running.transmit message := by
    change player.running.transmitDraft player.draft = _
    rw [Running.transmitDraft, encoded]
  rwa [sent] at ran

/-! Where a frame is taken. -/

theorem clearing_not_mem_send (sound : player.running.Sound)
    {outcome : Except (Refusal TransmitError) Unit} (ran : player.send.Runs trace outcome) :
    player.running.settings.clearing ∉ trace := by
  intro member
  have spares := (sound.transmitPayload_spares _ _).runs ran _ member
  have few := player.running.receiveBuffer.size.bufferCount_le
  have bound := player.running.receiveBuffer.index_lt
  have lowered := spares.flag _ rfl
  rw [← sound.buffers.receiveIndex, flagSet, testBit_flagWord _ (by omega)] at lowered
  simp at lowered

theorem Backlog.clearing_not_mem (sound : player.running.Sound) {held : Bool}
    (backlog : player.Backlog trace held) : player.running.settings.clearing ∉ trace := by
  cases backlog with
  | nothing clear => nofun
  | answered owed sent => exact clearing_not_mem_send sound sent
  | held owed blocked => exact clearing_not_mem_send sound blocked

end Player

namespace Settings

variable {settings : Settings} {trace : List (Event registers)}

theorem clearing_ne_read (offset : Nat) (word : UInt32) :
    settings.clearing ≠ ⟨.read offset, word⟩ := by
  intro same
  have calls := congrArg Event.call same
  cases calls

theorem clearing_not_mem_of_none (retrieval : settings.Retrieval trace none) :
    settings.clearing ∉ trace := by
  intro member
  cases retrieval with
  | nothing lowered => exact clearing_ne_read _ _ (List.mem_singleton.1 member)
  | waiting raised awaits =>
      rcases List.mem_cons.1 member with same | later
      · exact clearing_ne_read _ _ same
      · obtain ⟨control, -, same⟩ := List.mem_map.1 later
        exact clearing_ne_read _ _ same.symm

theorem clearing_last {message : Message} (retrieval : settings.Retrieval trace (some message)) :
    ∃ looks, trace = looks ++ [settings.clearing] ∧ settings.clearing ∉ looks := by
  cases retrieval with
  | @taken flags shown control ident time words _ raised awaits count made said =>
      refine ⟨⟨.read Register.iflag1.offset, flags⟩ :: (shown.map (settings.look 0) ++
        settings.look 1 ident :: words.mapIdx (fun number word => settings.look (2 + number) word) ++
        [⟨.read Register.timer.offset, time⟩]), ?_, ?_⟩
      · simp [clearing]
      · simp only [List.mem_cons, List.mem_append, List.mem_map, List.mem_mapIdx, List.not_mem_nil,
          or_false, not_or, not_exists, not_and]
        refine ⟨clearing_ne_read _ _, ⟨?_, ?_, ?_⟩, ?_⟩
        · intro shown _ same
          exact clearing_ne_read _ _ same.symm
        · exact clearing_ne_read _ _
        · intro number bound same
          exact clearing_ne_read _ _ same.symm
        · exact clearing_ne_read _ _

end Settings

namespace Player

variable {player : Player}

theorem Fate.clearing_not_mem (sound : player.running.Sound) {held owed : Bool}
    {after : List (Event (registers.both (indicator ε)))} {outcome : Except (PlayerError ε) Bool}
    (fate : player.Fate held after outcome owed) :
    player.running.settings.clearing.onLeft ∉ after := by
  have dark : player.running.settings.clearing.onLeft ∉
      (player.glow : List (Event (registers.both (indicator ε)))) := by
    unfold glow
    split
    · intro member
      cases congrArg Event.call (List.mem_singleton.1 member)
    · nofun
  have beyond {last : List (Event registers)} {result : Except (Refusal TransmitError) Unit}
      (ran : player.send.Runs last result) :
      player.running.settings.clearing.onLeft ∉
        (player.glow : List (Event (registers.both (indicator ε)))) ++ last.map .onLeft := by
    rw [List.mem_append, List.mem_map_of_injective Event.onLeft_injective]
    rintro (member | member)
    · exact dark member
    · exact clearing_not_mem_send sound ran member
  cases fate with
  | answered sent => exact beyond sent
  | waiting blocked => exact beyond blocked
  | refused failed => exact beyond failed
  | forgotten due =>
      intro member
      cases congrArg Event.call (List.mem_singleton.1 member)

theorem Backlog.attempt {trace : List (Event registers)} {held : Bool}
    (backlog : player.Backlog trace held) (owed : player.replyPending = true) :
    ∃ result, player.send.Runs trace result := by
  cases backlog with
  | nothing clear =>
      rw [owed] at clear
      cases clear
  | answered _ sent => exact ⟨_, sent⟩
  | held _ blocked => exact ⟨_, blocked⟩

section
variable {trace : List (Event (registers.both (indicator ε)))}
  {outcome : Except (PlayerError ε) Bool} {next : Player}

theorem Course.attempt (course : player.Course trace outcome next)
    (owed : player.replyPending = true) :
    ∃ attempt rest result, trace = attempt.map .onLeft ++ rest ∧
      player.send.Runs attempt result := by
  cases course with
  | refused _ failed => exact ⟨_, [], _, (List.append_nil _).symm, failed⟩
  | idle backlog nothing =>
      obtain ⟨result, tried⟩ := backlog.attempt owed
      exact ⟨_, _, result, rfl, tried⟩
  | taken backlog took fate =>
      obtain ⟨result, tried⟩ := backlog.attempt owed
      exact ⟨_, _, result, rfl, tried⟩

theorem Course.fate (course : player.Course trace outcome next) (sound : player.running.Sound)
    {before after : List (Event (registers.both (indicator ε)))}
    (split : trace = before ++ player.running.settings.clearing.onLeft :: after) :
    ∃ (early looks : List (Event registers)) (held owed : Bool),
      before = early.map .onLeft ++ looks.map .onLeft ∧
      player.Backlog early held ∧ player.Fate held after outcome owed ∧
      next = player.settle 1 owed := by
  have member : player.running.settings.clearing.onLeft ∈ trace := by
    rw [split]
    exact List.mem_append_right _ List.mem_cons_self
  cases course with
  | refused _ failed =>
      rw [List.mem_map_of_injective Event.onLeft_injective] at member
      exact absurd member (clearing_not_mem_send sound failed)
  | idle backlog nothing =>
      rw [← List.map_append, List.mem_map_of_injective Event.onLeft_injective,
        List.mem_append] at member
      rcases member with opening | looking
      · exact absurd opening (backlog.clearing_not_mem sound)
      · exact absurd looking
          (Settings.clearing_not_mem_of_none ((Running.runs_receive_iff sound).1 nothing))
  | @taken early _ held owed message later _ backlog took fate =>
      obtain ⟨looks, rfl, unread⟩ :=
        Settings.clearing_last ((Running.runs_receive_iff sound).1 took)
      have opening : player.running.settings.clearing.onLeft ∉
          ((early ++ looks).map .onLeft : List (Event (registers.both (indicator ε)))) := by
        rw [List.mem_map_of_injective Event.onLeft_injective, List.mem_append]
        rintro (tried | looked)
        · exact backlog.clearing_not_mem sound tried
        · exact unread looked
      have shape : (early ++ looks).map .onLeft ++
          player.running.settings.clearing.onLeft :: later =
            before ++ player.running.settings.clearing.onLeft :: after := by
        rw [← split]
        simp
      obtain ⟨rfl, -, rfl⟩ :=
        (List.append_cons_inj_of_notMem opening (fate.clearing_not_mem sound)).1 shape
      exact ⟨early, looks, held, owed, List.map_append, backlog, fate, rfl⟩

/-- Whatever a player is, whatever its controller shows and its indicator answers: an answer that is
owed from before is tried first, and the answer to a frame that a poll has taken is sent by the same
poll or owed when it ends, unless the indicator fails. Then nothing more is asked of the controller,
and what is owed is what was owed when the frame was taken. -/
theorem fate_of_taken {frozen : Frozen} {setup : List (Event registers)}
    (made : frozen.start.Runs setup (.ok (.ok player.running)))
    (ran : player.poll.Runs trace (outcome, next)) :
    (∀ attempt result, player.send.Runs attempt result → player.Sends attempt result) ∧
    (player.replyPending = true → ∃ attempt rest result,
      trace = attempt.map .onLeft ++ rest ∧ player.send.Runs attempt result) ∧
    ∀ before after, trace = before ++ player.running.settings.clearing.onLeft :: after →
      ∃ (early looks : List (Event registers)) (held owed : Bool),
        before = early.map .onLeft ++ looks.map .onLeft ∧
        player.Backlog early held ∧ player.Fate held after outcome owed ∧
        next = player.settle 1 owed := by
  have sound := Frozen.sound_of_start made
  have course := runs_poll ran
  refine ⟨?_, course.attempt, ?_⟩
  · intro attempt result sent
    exact sends_of_runs sound sent
  · intro before after split
    exact course.fate sound split

end

end Player

namespace Blank

theorem transmit_room : 0 < DataSize.bytes8.bufferCount := by decide

theorem receive_room : 4 < DataSize.bytes8.bufferCount := by decide

def running : Running where
  clock := .oscillator
  settings := .ofBitRate 500000
  transmitBuffer := ⟨.bytes8, 0, transmit_room⟩
  receiveBuffer := ⟨.bytes8, 4, receive_room⟩

theorem runs_start_running : frozen.start.Runs (frozen.start.trace device ()) (.ok (.ok running)) :=
  Program.runs_trace device frozen.start ()

def player : Player := { running, role := .nodeB, received := 999 }

/-- One more frame is there, and the indicator fails at its first call. -/
def dimmed : List (Event (registers.both (indicator Nat))) :=
  player.poll.trace (storing.both Lamp.access) (0, ⟨[1], 0, 0⟩)

theorem fate_of_taken_dimmed :
    frozen.start.Runs (frozen.start.trace device ()) (.ok (.ok player.running)) ∧
    player.poll.Runs dimmed (.error (.indicator 1), player.count) ∧
    dimmed = dimmed.take 7 ++ running.settings.clearing.onLeft :: [toggled (.error 1)] ∧
    player.Fate false [toggled (.error 1)] (.error (.indicator 1)) false ∧
    player.count = player.settle 1 false := by
  have polled : player.poll.Runs dimmed (.error (.indicator 1), player.count) :=
    Program.runs_trace (storing.both Lamp.access) player.poll (0, ⟨[1], 0, 0⟩)
  obtain ⟨-, -, taken⟩ := Player.fate_of_taken runs_start_running polled
  obtain ⟨early, looks, held, owed, -, backlog, fate, counted⟩ :=
    taken (dimmed.take 7) [toggled (.error 1)] rfl
  obtain rfl : false = owed := congrArg Player.replyPending counted
  obtain rfl : held = false := by
    cases backlog with
    | nothing clear => rfl
    | answered owed => cases owed
    | held owed => cases owed
  exact ⟨runs_start_running, polled, rfl, fate, counted⟩

end Blank

end BufferedCan
