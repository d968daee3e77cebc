import BufferedCan.Proofs.Exchange.Poll

/-! When the indicator is toggled, over any number of polls. The frames that a player has taken are
counted in 32 bits, and the indicator is toggled at each multiple of a thousand that the counter shows.
As 2^32 is none, the two toggles around the turn of the counter are only 296 frames apart. -/

namespace BufferedCan

namespace PingPong

inductive Beat
  | frame
  | toggle
  deriving DecidableEq, Repr

def due (count : Nat) : Bool := count % UInt32.size % toggleEvery == 0

def rhythm (count : Nat) : (frames : Nat) → List Beat
  | 0 => []
  | frames + 1 =>
    .frame :: if due (count + 1) then .toggle :: rhythm (count + 1) frames
      else rhythm (count + 1) frames

def togglesTo (count : Nat) : Nat :=
  count / UInt32.size * 4294968 + count % UInt32.size / toggleEvery

theorem due_iff {count : Nat} : due count = true ↔ count % 4294967296 % 1000 = 0 := by
  rw [due, toggleEvery, beq_iff_eq]

theorem togglesTo_succ (count : Nat) :
    togglesTo (count + 1) = togglesTo count + (due (count + 1)).toNat := by
  cases turn : due (count + 1) with
  | true =>
      rw [due_iff] at turn
      simp only [togglesTo, toggleEvery, UInt32.size, Bool.toNat_true]
      omega
  | false =>
      rw [← Bool.not_eq_true, due_iff] at turn
      simp only [togglesTo, toggleEvery, UInt32.size, Bool.toNat_false]
      omega

theorem rhythm_succ_of_due {count : Nat} (turn : due (count + 1) = true) (frames : Nat) :
    rhythm count (frames + 1) = .frame :: .toggle :: rhythm (count + 1) frames := by
  rw [rhythm, if_pos turn]

theorem rhythm_succ_of_not_due {count : Nat} (turn : due (count + 1) = false) (frames : Nat) :
    rhythm count (frames + 1) = .frame :: rhythm (count + 1) frames := by
  rw [rhythm, turn]
  rfl

theorem rhythm_add (count first second : Nat) :
    rhythm count (first + second) = rhythm count first ++ rhythm (count + first) second := by
  induction first generalizing count with
  | zero => rw [Nat.zero_add, rhythm, List.nil_append, Nat.add_zero]
  | succ first ih =>
      have shifted : count + 1 + first = count + (first + 1) := by omega
      have grown : first + 1 + second = first + second + 1 := by omega
      rw [grown]
      cases turn : due (count + 1) with
      | true => rw [rhythm_succ_of_due turn, rhythm_succ_of_due turn, ih, shifted]; rfl
      | false => rw [rhythm_succ_of_not_due turn, rhythm_succ_of_not_due turn, ih, shifted]; rfl

theorem rhythm_mod (count frames : Nat) :
    rhythm (count % UInt32.size) frames = rhythm count frames := by
  induction frames generalizing count with
  | zero => rfl
  | succ frames ih =>
      have shown : due (count % UInt32.size + 1) = due (count + 1) := by
        simp only [due, Nat.mod_add_mod]
      have next : rhythm (count % UInt32.size + 1) frames = rhythm (count + 1) frames := by
        rw [← ih (count % UInt32.size + 1), ← ih (count + 1), Nat.mod_add_mod]
      rw [rhythm, rhythm, shown, next]

theorem count_frame_rhythm (count frames : Nat) : (rhythm count frames).count .frame = frames := by
  induction frames generalizing count with
  | zero => rfl
  | succ frames ih =>
      cases turn : due (count + 1) with
      | true =>
          rw [rhythm_succ_of_due turn, List.count_cons_self, List.count_cons_of_ne (by decide), ih]
      | false => rw [rhythm_succ_of_not_due turn, List.count_cons_self, ih]

theorem count_toggle_rhythm (count frames : Nat) :
    (rhythm count frames).count .toggle + togglesTo count = togglesTo (count + frames) := by
  induction frames generalizing count with
  | zero => exact Nat.zero_add _
  | succ frames ih =>
      have rest := ih (count + 1)
      have shifted : count + 1 + frames = count + (frames + 1) := by omega
      rw [shifted, togglesTo_succ] at rest
      cases turn : due (count + 1) with
      | true =>
          rw [turn, Bool.toNat_true] at rest
          rw [rhythm_succ_of_due turn, List.count_cons_of_ne (by decide), List.count_cons_self]
          omega
      | false =>
          rw [turn, Bool.toNat_false] at rest
          rw [rhythm_succ_of_not_due turn, List.count_cons_of_ne (by decide)]
          omega

/-- A new player has toggled once more than a thousandth of 2^32 times when its counter has come round. -/
example : togglesTo UInt32.size = 4294968 ∧ UInt32.size / toggleEvery = 4294967 := by decide

theorem rhythm_split {count frames : Nat} {before after : List Beat}
    (split : rhythm count frames = before ++ .toggle :: after) :
    due (count + before.count .frame) = true ∧
      ∃ later, after = rhythm (count + before.count .frame) later := by
  induction frames generalizing count before with
  | zero => simp [rhythm] at split
  | succ frames ih =>
      cases turn : due (count + 1) with
      | true =>
          rw [rhythm_succ_of_due turn] at split
          rcases before with _ | ⟨first, _ | ⟨second, before⟩⟩
          · cases split
          · obtain ⟨rfl, rest⟩ := List.cons.inj split
            obtain ⟨-, rfl⟩ := List.cons.inj rest
            exact ⟨turn, frames, rfl⟩
          · obtain ⟨rfl, rest⟩ := List.cons.inj split
            obtain ⟨rfl, tail⟩ := List.cons.inj rest
            have shifted : count + (Beat.frame :: Beat.toggle :: before).count .frame =
                count + 1 + before.count .frame := by
              rw [List.count_cons_self, List.count_cons_of_ne (by decide)]
              omega
            rw [shifted]
            exact ih tail
      | false =>
          rw [rhythm_succ_of_not_due turn] at split
          rcases before with _ | ⟨first, before⟩
          · cases split
          · obtain ⟨rfl, tail⟩ := List.cons.inj split
            have shifted : count + (Beat.frame :: before).count .frame =
                count + 1 + before.count .frame := by
              rw [List.count_cons_self]
              omega
            rw [shifted]
            exact ih tail

theorem rhythm_next {count frames gap : Nat} {after : List Beat}
    (split : rhythm count frames = List.replicate gap .frame ++ .toggle :: after) :
    0 < gap ∧ due (count + gap) = true ∧
      ∀ fewer, 0 < fewer → fewer < gap → due (count + fewer) = false := by
  induction gap generalizing count frames with
  | zero =>
      rcases frames with _ | frames
      · cases split
      · cases split
  | succ gap ih =>
      rcases frames with _ | frames
      · cases split
      · cases turn : due (count + 1) with
        | true =>
            rw [rhythm_succ_of_due turn] at split
            have tail := (List.cons.inj split).2
            rcases gap with _ | gap
            · refine ⟨Nat.one_pos, turn, ?_⟩
              intro fewer positive small
              omega
            · cases tail
        | false =>
            rw [rhythm_succ_of_not_due turn] at split
            obtain ⟨-, reached, between⟩ := ih (List.cons.inj split).2
            have shifted : count + 1 + gap = count + (gap + 1) := by omega
            rw [shifted] at reached
            refine ⟨Nat.succ_pos gap, reached, ?_⟩
            intro fewer positive small
            by_cases first : fewer = 1
            · rwa [first]
            · have earlier := between (fewer - 1) (by omega) (by omega)
              have same : count + 1 + (fewer - 1) = count + fewer := by omega
              rwa [same] at earlier

theorem gap_eq {count gap : Nat} (start : due count = true) (positive : 0 < gap)
    (reached : due (count + gap) = true)
    (between : ∀ fewer, 0 < fewer → fewer < gap → due (count + fewer) = false) :
    gap = if (count + gap) % UInt32.size = 0 then 296 else toggleEvery := by
  have least {fewer : Nat} (present : 0 < fewer) (turn : due (count + fewer) = true) :
      gap ≤ fewer := by
    by_contra more
    have absent := between fewer present (by omega)
    rw [turn] at absent
    cases absent
  have onward {frames : Nat} (fits : count % 4294967296 + frames < 4294967296) :
      (count + frames) % 4294967296 = count % 4294967296 + frames := by
    omega
  rw [due_iff] at start reached
  rw [toggleEvery, UInt32.size]
  by_cases room : count % 4294967296 + 1000 < 4294967296
  · have few : gap ≤ 1000 := by
      apply least (by decide)
      rw [due_iff, onward room]
      omega
    have shown := onward (show count % 4294967296 + gap < 4294967296 by omega)
    rw [shown] at reached ⊢
    rw [if_neg (by omega)]
    omega
  · have turned : (count + 296) % 4294967296 = 0 := by omega
    have few : gap ≤ 296 := by
      apply least (by decide)
      rw [due_iff]
      omega
    by_cases fewer : gap < 296
    · have shown := onward (show count % 4294967296 + gap < 4294967296 by omega)
      rw [shown] at reached
      omega
    · obtain rfl : gap = 296 := Nat.le_antisymm few (Nat.not_lt.1 fewer)
      exact (if_pos turned).symm

end PingPong

/-! What is exchanged in polls. -/

open PingPong

variable {ε : Type}

namespace Settings

/-- A frame is taken where the flag of the receive buffer is cleared. -/
def beat? (settings : Settings) : Event (registers.both (indicator ε)) → Option Beat
  | ⟨.inl access, _⟩ =>
    if access = .write Register.iflag1.offset (flagWord settings.buffers.receive) then some .frame
    else none
  | ⟨.inr _, _⟩ => some .toggle

def beats (settings : Settings) (history : List (Event (registers.both (indicator ε)))) :
    List Beat :=
  history.filterMap settings.beat?

variable {settings : Settings}

theorem beat?_clearing :
    settings.beat? (settings.clearing.onLeft : Event (registers.both (indicator ε))) =
      some .frame :=
  if_pos rfl

theorem beats_append (first second : List (Event (registers.both (indicator ε)))) :
    settings.beats (first ++ second) = settings.beats first ++ settings.beats second :=
  List.filterMap_append

theorem beats_of_not_mem {trace : List (Event registers)} (absent : settings.clearing ∉ trace) :
    settings.beats (trace.map .onLeft : List (Event (registers.both (indicator ε)))) = [] := by
  apply List.filterMap_eq_nil_iff.2
  intro event member
  obtain ⟨⟨call, reply⟩, among, rfl⟩ := List.mem_map.1 member
  refine if_neg ?_
  rintro rfl
  exact absent among

theorem beats_retrieval {trace : List (Event registers)} {message : Message}
    (retrieval : settings.Retrieval trace (some message)) :
    settings.beats (trace.map .onLeft : List (Event (registers.both (indicator ε)))) = [.frame] := by
  obtain ⟨looks, rfl, unread⟩ := clearing_last retrieval
  rw [List.map_append, beats_append, beats_of_not_mem unread, List.nil_append]
  exact List.filterMap_cons_some beat?_clearing

end Settings

namespace Player

inductive Polls : Player → List (Event (registers.both (indicator ε))) → Player → Prop
  | none (player : Player) : Polls player [] player
  | next {player middle last : Player} {trace later : List (Event (registers.both (indicator ε)))}
      {outcome : Except (PlayerError ε) Bool} (poll : player.poll.Runs trace (outcome, middle))
      (rest : Polls middle later last) : Polls player (trace ++ later) last

variable {player : Player}

theorem togglesNow_count (player : Player) :
    player.count.togglesNow = due (player.received.toNat + 1) := by
  rw [togglesNow, count, due, UInt32.toNat_add]
  rfl

theorem beats_glow : player.running.settings.beats
    (player.glow : List (Event (registers.both (indicator ε)))) =
      if due (player.received.toNat + 1) then [.toggle] else [] := by
  rw [glow, togglesNow_count]
  split
  · rfl
  · rfl

theorem Fate.beats (sound : player.running.Sound) {held owed : Bool}
    {after : List (Event (registers.both (indicator ε)))} {outcome : Except (PlayerError ε) Bool}
    (fate : player.Fate held after outcome owed) :
    player.running.settings.beats after =
      if due (player.received.toNat + 1) then [.toggle] else [] := by
  have answering {last : List (Event registers)} {result : Except (Refusal TransmitError) Unit}
      (ran : player.send.Runs last result) :
      player.running.settings.beats
          (player.glow ++ last.map .onLeft : List (Event (registers.both (indicator ε)))) =
        if due (player.received.toNat + 1) then [.toggle] else [] := by
    rw [Settings.beats_append, Settings.beats_of_not_mem (clearing_not_mem_send sound ran),
      List.append_nil, beats_glow]
  cases fate with
  | answered sent => exact answering sent
  | waiting blocked => exact answering blocked
  | refused failed => exact answering failed
  | forgotten turn =>
      rw [togglesNow_count] at turn
      rw [if_pos turn]
      rfl

theorem Course.beats (sound : player.running.Sound)
    {trace : List (Event (registers.both (indicator ε)))} {outcome : Except (PlayerError ε) Bool}
    {next : Player} (course : player.Course trace outcome next) :
    next.running = player.running ∧ ∃ frames,
      player.running.settings.beats trace = rhythm player.received.toNat frames ∧
      next.received.toNat = (player.received.toNat + frames) % UInt32.size := by
  have idle : player.received.toNat = (player.received.toNat + 0) % UInt32.size :=
    (Nat.mod_eq_of_lt player.received.toNat_lt_size).symm
  cases course with
  | refused owed failed =>
      refine ⟨rfl, 0, ?_, idle⟩
      rw [Settings.beats_of_not_mem (clearing_not_mem_send sound failed)]
      rfl
  | idle backlog nothing =>
      have looked := (Running.runs_receive_iff sound).1 nothing
      refine ⟨rfl, 0, ?_, ?_⟩
      · rw [Settings.beats_append, Settings.beats_of_not_mem (backlog.clearing_not_mem sound),
          Settings.beats_of_not_mem (Settings.clearing_not_mem_of_none looked)]
        rfl
      · rw [settle, UInt32.add_zero]
        exact idle
  | taken backlog took fate =>
      have looked := (Running.runs_receive_iff sound).1 took
      refine ⟨rfl, 1, ?_, UInt32.toNat_add _ _⟩
      rw [Settings.beats_append, Settings.beats_append,
        Settings.beats_of_not_mem (backlog.clearing_not_mem sound),
        Settings.beats_retrieval looked, fate.beats sound]
      rfl

theorem Polls.beats {history : List (Event (registers.both (indicator ε)))} {last : Player}
    (polls : player.Polls history last) (sound : player.running.Sound) :
    ∃ frames, player.running.settings.beats history = rhythm player.received.toNat frames ∧
      last.received.toNat = (player.received.toNat + frames) % UInt32.size := by
  induction polls with
  | none player => exact ⟨0, rfl, (Nat.mod_eq_of_lt player.received.toNat_lt_size).symm⟩
  | @next player middle last trace later outcome poll rest ih =>
      obtain ⟨same, first, beats, received⟩ := (runs_poll poll).beats sound
      rw [same] at ih
      obtain ⟨more, onward, counted⟩ := ih sound
      refine ⟨first + more, ?_, ?_⟩
      · rw [Settings.beats_append, beats, onward, received, rhythm_mod, rhythm_add]
      · rw [counted, received, Nat.mod_add_mod, Nat.add_assoc]

/-- Whatever a player has taken before, whatever its controller shows and whether or not its indicator
obeys: between two toggles in a row it takes a thousand frames, or 296 if the last of them turns the
counter over to zero. -/
theorem toggles_spaced {frozen : Frozen} {setup : List (Event registers)}
    (made : frozen.start.Runs setup (.ok (.ok player.running)))
    {history : List (Event (registers.both (indicator ε)))} {last : Player}
    (polls : player.Polls history last) :
    let beats := player.running.settings.beats history
    (∀ before gap after,
      beats = before ++ .toggle :: (List.replicate gap .frame ++ .toggle :: after) →
        gap = if (player.received.toNat + before.count .frame + gap) % UInt32.size = 0 then 296
          else toggleEvery) ∧
    beats.count .toggle + togglesTo player.received.toNat =
      togglesTo (player.received.toNat + beats.count .frame) ∧
    last.received.toNat = (player.received.toNat + beats.count .frame) % UInt32.size := by
  obtain ⟨frames, rhythmic, counted⟩ := polls.beats (Frozen.sound_of_start made)
  dsimp only
  rw [rhythmic, count_frame_rhythm]
  refine ⟨?_, count_toggle_rhythm _ _, counted⟩
  intro before gap after split
  obtain ⟨start, later, onward⟩ := rhythm_split split
  obtain ⟨positive, reached, between⟩ := rhythm_next onward.symm
  exact gap_eq start positive reached between

end Player

namespace Player

def pollTimes {σ : Type} (devices : Handler (registers.both (indicator ε)) σ) :
    Nat → Player → σ → List (Event (registers.both (indicator ε))) × Player
  | 0, player, _ => ([], player)
  | times + 1, player, state =>
    match player.poll.run devices state with
    | ((_, middle), after) =>
      match pollTimes devices times middle after with
      | (later, last) => (player.poll.trace devices state ++ later, last)

theorem polls_pollTimes {σ : Type} (devices : Handler (registers.both (indicator ε)) σ)
    (times : Nat) (player : Player) (state : σ) :
    player.Polls (pollTimes devices times player state).1
      (pollTimes devices times player state).2 := by
  induction times generalizing player state with
  | zero => exact .none player
  | succ times ih =>
      exact .next (player.poll.runs_trace devices state) (ih _ _)

end Player

namespace Blank

def flooded : Handler registers Unit
  | .read offset, _ =>
    (if offset = Register.iflag1.offset then flagWord 4
      else if offset = ramOffset 0 then MbCs.code.set BufferCode.txData.toBits 0 else 0, ())
  | .write _ _, _ => ((), ())

def steady : Handler (indicator Empty) Nat
  | (), toggles => (.ok (), toggles + 1)

/-- A player that toggles at its next frame, and then again when the counter turns over. -/
def veteran : Player := { running, role := .nodeB, received := 4294966999 }

def turn : List (Event (registers.both (indicator Empty))) × Player :=
  Player.pollTimes (flooded.both steady) 297 veteran ((), 0)

theorem beats_turn : veteran.running.settings.beats turn.1 =
    [.frame] ++ .toggle :: (List.replicate 296 .frame ++ .toggle :: []) := by
  decide +kernel

theorem toggles_spaced_turn :
    frozen.start.Runs (frozen.start.trace device ()) (.ok (.ok veteran.running)) ∧
    veteran.Polls turn.1 turn.2 ∧
    veteran.running.settings.beats turn.1 =
      [.frame] ++ .toggle :: (List.replicate 296 .frame ++ .toggle :: []) ∧
    296 = (if (veteran.received.toNat + [Beat.frame].count .frame + 296) % UInt32.size = 0 then 296
      else toggleEvery) ∧
    turn.2.received.toNat = 0 := by
  have polls : veteran.Polls turn.1 turn.2 := Player.polls_pollTimes _ _ _ _
  obtain ⟨gaps, -, counted⟩ := Player.toggles_spaced runs_start_running polls
  refine ⟨runs_start_running, polls, beats_turn, gaps _ _ _ beats_turn, ?_⟩
  rw [counted, beats_turn]
  decide +kernel

end Blank

end BufferedCan
