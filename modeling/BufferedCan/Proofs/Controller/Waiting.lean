import BufferedCan.Hardware.Memory
import BufferedCan.Proofs.Controller.Modes
import BufferedCan.Proofs.Program.Runs

/-! How long software waits for a controller. A change of mode is asked for and then looked for in
the configuration register, a bounded number of times. The controller may show anything at any time: a
flag may come with the last look, or be gone again when something else is looked for. -/

namespace BufferedCan

def looks (answers : List UInt32) : List (Event registers) :=
  answers.map fun word => ⟨.read Register.mcr.offset, word⟩

namespace Handshake

/-- The last look shows what was awaited, and none before it did. -/
structure Met (handshake : Handshake) (limit : Nat) (answers : List UInt32) : Prop where
  bounded : answers.length ≤ limit
  first : ∃ early word, answers = early ++ [word] ∧
    (∀ other ∈ early, handshake.reached other = false) ∧ handshake.reached word = true

/-- As many looks as there may be, and none shows what was awaited. -/
structure Missed (handshake : Handshake) (limit : Nat) (answers : List UInt32) : Prop where
  exhausted : answers.length = limit
  never : ∀ word ∈ answers, handshake.reached word = false

variable {handshake : Handshake} {limit : Nat} {answers : List UInt32} {word : UInt32}

theorem Met.now (reached : handshake.reached word = true) : handshake.Met (limit + 1) [word] :=
  ⟨by simp, [], word, rfl, by simp, reached⟩

theorem Met.cons (late : handshake.reached word = false) (met : handshake.Met limit answers) :
    handshake.Met (limit + 1) (word :: answers) := by
  obtain ⟨bounded, early, shown, rfl, none, reached⟩ := met
  refine ⟨Nat.succ_le_succ bounded, word :: early, shown, rfl, ?_, reached⟩
  intro other member
  rcases List.mem_cons.1 member with rfl | old
  · exact late
  · exact none other old

theorem Met.pos (met : handshake.Met limit answers) : 0 < limit := by
  obtain ⟨bounded, early, word, rfl, -⟩ := met
  rw [List.length_append, List.length_singleton] at bounded
  omega

theorem met_cons_iff : handshake.Met (limit + 1) (word :: answers) ↔
    handshake.reached word = true ∧ answers = [] ∨
      handshake.reached word = false ∧ handshake.Met limit answers := by
  constructor
  · rintro ⟨bounded, early, shown, split, none, reached⟩
    cases early with
    | nil =>
        obtain ⟨rfl, rfl⟩ := List.cons.inj split
        exact .inl ⟨reached, rfl⟩
    | cons first early =>
        obtain ⟨rfl, rfl⟩ := List.cons.inj split
        refine .inr ⟨none word List.mem_cons_self, Nat.le_of_succ_le_succ bounded, early, shown,
          rfl, ?_, reached⟩
        intro other member
        exact none other (List.mem_cons_of_mem word member)
  · rintro (⟨reached, rfl⟩ | ⟨late, met⟩)
    · exact .now reached
    · exact .cons late met

theorem missed_cons_iff : handshake.Missed (limit + 1) (word :: answers) ↔
    handshake.reached word = false ∧ handshake.Missed limit answers := by
  constructor
  · rintro ⟨exhausted, never⟩
    exact ⟨never word List.mem_cons_self, Nat.succ.inj exhausted,
      fun other member => never other (List.mem_cons_of_mem word member)⟩
  · rintro ⟨late, exhausted, never⟩
    exact ⟨congrArg (· + 1) exhausted, List.forall_mem_cons.2 ⟨late, never⟩⟩

theorem runs_await_iff {trace : List (Event registers)} {outcome : Except SetupError Unit} :
    (handshake.await limit).Runs trace outcome ↔ ∃ answers, trace = looks answers ∧
      (outcome = .ok () ∧ handshake.Met limit answers ∨
        outcome = .error (.timeout handshake) ∧ handshake.Missed limit answers) := by
  induction limit generalizing trace with
  | zero =>
      rw [await, Program.runs_done_iff]
      constructor
      · rintro ⟨rfl, rfl⟩
        exact ⟨[], rfl, .inr ⟨rfl, rfl, by simp⟩⟩
      · rintro ⟨answers, rfl, ⟨-, bounded, early, shown, rfl, -⟩ | ⟨rfl, exhausted, -⟩⟩
        · simp at bounded
        · obtain rfl := List.length_eq_zero_iff.1 exhausted
          exact ⟨rfl, rfl⟩
  | succ limit ih =>
      rw [await, Program.runs_bind_iff]
      constructor
      · rintro ⟨first, rest, word, rfl, look, ran⟩
        obtain rfl := runs_readWord_iff.1 look
        by_cases reached : handshake.reached word = true
        · rw [if_pos reached] at ran
          obtain ⟨rfl, rfl⟩ := Program.runs_done_iff.1 ran
          exact ⟨[word], rfl, .inl ⟨rfl, .now reached⟩⟩
        · rw [if_neg reached] at ran
          rw [Bool.not_eq_true] at reached
          obtain ⟨answers, rfl, ⟨rfl, met⟩ | ⟨rfl, missed⟩⟩ := ih.1 ran
          · exact ⟨word :: answers, rfl, .inl ⟨rfl, .cons reached met⟩⟩
          · exact ⟨word :: answers, rfl, .inr ⟨rfl, missed_cons_iff.2 ⟨reached, missed⟩⟩⟩
      · rintro ⟨answers, rfl, ended⟩
        cases answers with
        | nil =>
            rcases ended with ⟨-, -, early, shown, split, -⟩ | ⟨-, exhausted, -⟩
            · simp at split
            · simp at exhausted
        | cons word answers =>
            refine ⟨_, looks answers, word, rfl, runs_readWord_iff.2 rfl, ?_⟩
            rw [met_cons_iff, missed_cons_iff] at ended
            by_cases reached : handshake.reached word = true
            · simp only [reached, Bool.true_eq_false, true_and, false_and, or_false,
                and_false] at ended
              obtain ⟨rfl, rfl⟩ := ended
              rw [if_pos reached]
              exact .done _
            · rw [if_neg reached]
              simp only [reached, Bool.false_eq_true, false_and, false_or, true_and] at ended
              exact ih.2 ⟨answers, rfl, ended⟩

end Handshake

structure ModeChange where
  request : Program registers Unit
  handshake : Handshake

namespace ModeChange

def perform (limit : Nat) : List ModeChange → Attempt SetupError Unit
  | [] => pure ()
  | change :: rest => do
    change.request
    ExceptT.mk (change.handshake.await limit)
    perform limit rest

/-- Each change is asked for once the one before it was seen. `missing` is the handshake that was given
up, and nothing comes after that. -/
inductive Passage (limit : Nat) :
    List ModeChange → List (Event registers) → (missing : Option Handshake) → Prop
  | arrived : Passage limit [] [] none
  | seen {change : ModeChange} {rest : List ModeChange} {asked later : List (Event registers)}
      {answers : List UInt32} {missing : Option Handshake}
      (request : change.request.Runs asked ()) (met : change.handshake.Met limit answers)
      (onward : Passage limit rest later missing) :
      Passage limit (change :: rest) (asked ++ (looks answers ++ later)) missing
  | givenUp {change : ModeChange} {rest : List ModeChange} {asked : List (Event registers)}
      {answers : List UInt32} (request : change.request.Runs asked ())
      (missed : change.handshake.Missed limit answers) :
      Passage limit (change :: rest) (asked ++ looks answers) (some change.handshake)

def verdict {α : Type} (value : α) : (missing : Option Handshake) → Except SetupError α
  | none => .ok value
  | some handshake => .error (.timeout handshake)

end ModeChange

theorem Attempt.runs_bind_iff {ε α β : Type} {attempt : Attempt ε α} {next : α → Attempt ε β}
    {trace : List (Event registers)} {outcome : Except ε β} :
    (attempt >>= next).run.Runs trace outcome ↔
      (∃ first second value, trace = first ++ second ∧ attempt.run.Runs first (.ok value) ∧
        (next value).run.Runs second outcome) ∨
      ∃ error, outcome = .error error ∧ attempt.run.Runs trace (.error error) := by
  rw [ExceptT.run_bind, Program.runs_bind_iff]
  constructor
  · rintro ⟨first, second, ended, rfl, ran, onward⟩
    cases ended with
    | ok value => exact .inl ⟨first, second, value, rfl, ran, onward⟩
    | error error =>
        obtain ⟨rfl, rfl⟩ := Program.runs_done_iff.1 onward
        rw [List.append_nil]
        exact .inr ⟨error, rfl, ran⟩
  · rintro (⟨first, second, value, rfl, ran, onward⟩ | ⟨error, rfl, ran⟩)
    · exact ⟨first, second, .ok value, rfl, ran, onward⟩
    · exact ⟨trace, [], .error error, (List.append_nil _).symm, ran, .done _⟩

theorem Attempt.runs_lift_iff {ε α β : Type} {program : Program registers α}
    {next : α → Attempt ε β} {trace : List (Event registers)} {outcome : Except ε β} :
    ((liftM program : Attempt ε α) >>= next).run.Runs trace outcome ↔
      ∃ first second value, trace = first ++ second ∧ program.Runs first value ∧
        (next value).run.Runs second outcome := by
  have lifted : (liftM program : Attempt ε α).run = program >>= fun value => .done (.ok value) :=
    rfl
  rw [ExceptT.run_bind, lifted, bind_assoc, Program.runs_bind_iff]
  exact Iff.rfl

namespace ModeChange

theorem runs_perform_iff {limit : Nat} {changes : List ModeChange} {trace : List (Event registers)}
    {outcome : Except SetupError Unit} :
    (perform limit changes).run.Runs trace outcome ↔
      ∃ missing, Passage limit changes trace missing ∧ outcome = verdict () missing := by
  induction changes generalizing trace with
  | nil =>
      constructor
      · intro ran
        obtain ⟨rfl, rfl⟩ := Program.runs_done_iff.1 ran
        exact ⟨none, .arrived, rfl⟩
      · rintro ⟨missing, passage, rfl⟩
        cases passage
        exact .done _
  | cons change rest ih =>
      rw [perform, Attempt.runs_lift_iff]
      constructor
      · rintro ⟨asked, later, _, rfl, request, ran⟩
        rcases Attempt.runs_bind_iff.1 ran with
          ⟨seen, tail, _, rfl, waited, onward⟩ | ⟨error, rfl, waited⟩
        · obtain ⟨answers, rfl, ⟨-, met⟩ | ⟨same, -⟩⟩ := Handshake.runs_await_iff.1 waited
          · obtain ⟨missing, passage, rfl⟩ := ih.1 onward
            exact ⟨missing, .seen request met passage, rfl⟩
          · cases same
        · obtain ⟨answers, rfl, ⟨same, -⟩ | ⟨same, missed⟩⟩ := Handshake.runs_await_iff.1 waited
          · cases same
          · cases same
            exact ⟨_, .givenUp request missed, rfl⟩
      · rintro ⟨missing, passage, rfl⟩
        cases passage with
        | @seen _ _ asked later answers _ request met onward =>
            refine ⟨asked, _, (), rfl, request, Attempt.runs_bind_iff.2 (.inl ?_)⟩
            have waited := Handshake.runs_await_iff.2 ⟨answers, rfl, .inl ⟨rfl, met⟩⟩
            exact ⟨looks answers, later, (), rfl, waited, ih.2 ⟨missing, onward, rfl⟩⟩
        | @givenUp _ _ asked answers request missed =>
            refine ⟨asked, _, (), rfl, request, Attempt.runs_bind_iff.2 (.inr ?_)⟩
            exact ⟨_, rfl, Handshake.runs_await_iff.2 ⟨answers, rfl, .inr ⟨rfl, missed⟩⟩⟩

theorem verdict_inj {α : Type} (value : α) {first second : Option Handshake}
    (same : verdict value first = verdict value second) : first = second := by
  cases first <;> cases second <;> cases same <;> rfl

theorem Passage.unique {limit : Nat} {changes : List ModeChange} {trace : List (Event registers)}
    {first second : Option Handshake} (left : Passage limit changes trace first)
    (right : Passage limit changes trace second) : first = second := by
  have ran := runs_perform_iff.2 ⟨first, left, rfl⟩
  have again := runs_perform_iff.2 ⟨second, right, rfl⟩
  exact verdict_inj () (ran.unique again)

theorem Passage.patient {limit : Nat} {change : ModeChange} {rest : List ModeChange}
    {trace : List (Event registers)} (passage : Passage limit (change :: rest) trace none) :
    0 < limit := by
  cases passage with
  | seen _ met _ => exact met.pos

end ModeChange

/-! A request looks at the configuration register only to change it: it does not wait. -/

namespace Access

def Blind : Access → Prop
  | .read offset => offset ≠ Register.mcr.offset
  | .write _ _ => True

end Access

/-- Every look at the configuration register is followed at once by a write to it. -/
def Direct (events : List (Event registers)) : Prop :=
  ∀ before word after, events = before ++ ⟨.read Register.mcr.offset, word⟩ :: after →
    ∃ value later, after = ⟨.write Register.mcr.offset value, ()⟩ :: later

theorem Direct.append {first second : List (Event registers)} (left : Direct first)
    (right : Direct second) : Direct (first ++ second) := by
  intro before word after split
  rcases List.append_eq_append_iff.1 split with ⟨middle, rfl, behind⟩ | ⟨middle, rfl, behind⟩
  · exact right middle word after behind
  · cases middle with
    | nil => exact right [] word after behind.symm
    | cons event middle =>
        obtain ⟨rfl, rfl⟩ := List.cons.inj behind
        obtain ⟨value, later, rfl⟩ := left before word middle rfl
        exact ⟨value, later ++ second, rfl⟩

theorem direct_of_blind {α : Type} {program : Program registers α} {trace : List (Event registers)}
    {value : α} (blind : program.Within Access.Blind) (ran : program.Runs trace value) :
    Direct trace := by
  intro before word after split
  have looked : (⟨.read Register.mcr.offset, word⟩ : Event registers) ∈ trace := by
    rw [split]
    exact List.mem_append_right before List.mem_cons_self
  exact absurd rfl (blind.runs ran _ looked)

theorem direct_modifyMcr {change : UInt32 → UInt32} {trace : List (Event registers)}
    (ran : (Register.mcr.modify change).Runs trace ()) : Direct trace := by
  obtain ⟨seen, rfl⟩ := runs_modify_iff.1 ran
  intro before word after split
  cases before with
  | nil =>
      obtain ⟨-, rfl⟩ := List.cons.inj split
      exact ⟨_, [], rfl⟩
  | cons event before =>
      obtain ⟨-, rest⟩ := List.cons.inj split
      cases before with
      | nil => cases rest
      | cons event before =>
          obtain ⟨-, rest⟩ := List.cons.inj rest
          simp at rest

theorem direct_bind {α β : Type} {program : Program registers α} {next : α → Program registers β}
    {trace : List (Event registers)} {result : β}
    (first : ∀ trace value, program.Runs trace value → Direct trace)
    (second : ∀ value trace result, (next value).Runs trace result → Direct trace)
    (ran : (program >>= next).Runs trace result) : Direct trace := by
  obtain ⟨left, right, value, rfl, started, ended⟩ := Program.runs_bind_iff.1 ran
  exact (first left value started).append (second value right result ended)

theorem writeWord_blind (offset : Nat) (value : UInt32) :
    (writeWord offset value).Within Access.Blind :=
  ⟨trivial, fun _ => trivial⟩

theorem Register.modify_blind {register : Register} (apart : register ≠ .mcr)
    (change : UInt32 → UInt32) : (register.modify change).Within Access.Blind := by
  refine Program.within_bind ⟨?_, fun _ => trivial⟩ fun word => writeWord_blind _ _
  intro same
  exact apart (Register.offset_injective same)

theorem Rates.program_blind (rates : Rates) (nominal : BitTiming) :
    (rates.program nominal).Within Access.Blind := by
  cases rates with
  | classic prescaler =>
      apply Program.within_bind (Register.modify_blind (by decide) _)
      intro _
      apply Program.within_bind (Register.modify_blind (by decide) _)
      intro _
      exact Register.modify_blind (by decide) _
  | flexible rate prescaler dataPrescaler =>
      apply Program.within_bind (Register.modify_blind (by decide) _)
      intro _
      apply Program.within_bind (Register.modify_blind (by decide) _)
      intro _
      apply Program.within_bind (Register.modify_blind (by decide) _)
      intro _
      exact Register.modify_blind (by decide) _

theorem Plan.prepareBuffers_blind (plan : Plan) (settings : Settings) :
    (plan.prepareBuffers settings).Within Access.Blind := by
  apply Program.within_bind (Program.within_forEach fun word _ => writeWord_blind _ _)
  intro _
  apply Program.within_bind (Program.within_forEach fun index _ => writeWord_blind _ _)
  intro _
  apply Program.within_bind (writeWord_blind _ _)
  intro _
  exact Program.within_bind (writeWord_blind _ _) fun _ => writeWord_blind _ _

theorem Plan.direct_configure (plan : Plan) (settings : Settings) {trace : List (Event registers)}
    (ran : (plan.configure settings).Runs trace ()) : Direct trace := by
  refine direct_bind (fun _ _ => direct_of_blind (plan.rates.program_blind _)) ?_ ran
  intro _ _ _
  refine direct_bind (fun _ _ => direct_of_blind (Register.modify_blind (by decide) _)) ?_
  intro _ _ _
  refine direct_bind (fun _ _ => direct_of_blind (plan.prepareBuffers_blind settings)) ?_
  intro _ _ _
  exact direct_modifyMcr

/-! The calls that change the mode. -/

def Clock.takeOver (clock : Clock) : List ModeChange :=
  [⟨Register.mcr.modify (Mcr.mdis.put true), .lowPowerEntry⟩,
    ⟨do
      Register.ctrl1.modify (Ctrl1.clksrc.put (clock.source == .peripheral))
      Register.mcr.modify (Mcr.mdis.put false), .lowPowerExit⟩,
    ⟨Register.mcr.modify Mcr.freezing, .freezeEntry⟩]

def ModeChange.freeze : List ModeChange := [⟨Register.mcr.modify Mcr.freezing, .freezeEntry⟩]

def Plan.launch (plan : Plan) (settings : Settings) : List ModeChange :=
  [⟨do
      plan.configure settings
      Register.mcr.modify Mcr.thawing, .freezeExit⟩,
    ⟨.done (), .ready⟩]

namespace ModeChange

structure Orderly {α : Type} (limit : Nat) (changes : List ModeChange)
    (trace : List (Event registers)) (outcome : Except SetupError α) (value : α) : Prop where
  direct : ∀ change ∈ changes, ∀ asked, change.request.Runs asked () → Direct asked
  passage : ∃ missing, Passage limit changes trace missing
  timeout_iff : ∀ handshake,
    outcome = .error (.timeout handshake) ↔ Passage limit changes trace (some handshake)
  success_iff : outcome = .ok value ↔ Passage limit changes trace none
  impatient : limit = 0 → ∀ first rest, changes = first :: rest →
    outcome = .error (.timeout first.handshake)

theorem orderly_of_runs {α : Type} {limit : Nat} {changes : List ModeChange}
    {trace : List (Event registers)} {outcome : Except SetupError α} {value : α}
    (direct : ∀ change ∈ changes, ∀ asked, change.request.Runs asked () → Direct asked)
    (ran : (do perform limit changes; return value : Attempt SetupError α).run.Runs trace outcome) :
    Orderly limit changes trace outcome value := by
  have ended :
      ∃ missing, Passage limit changes trace missing ∧ outcome = verdict value missing := by
    rcases Attempt.runs_bind_iff.1 ran with
      ⟨first, second, _, rfl, passed, rest⟩ | ⟨error, rfl, failed⟩
    · obtain ⟨rfl, rfl⟩ := Program.runs_done_iff.1 rest
      obtain ⟨missing, passage, same⟩ := runs_perform_iff.1 passed
      cases missing with
      | none =>
          rw [List.append_nil]
          exact ⟨none, passage, rfl⟩
      | some handshake => cases same
    · obtain ⟨missing, passage, same⟩ := runs_perform_iff.1 failed
      cases missing with
      | none => cases same
      | some handshake =>
          cases same
          exact ⟨some handshake, passage, rfl⟩
  obtain ⟨missing, passage, rfl⟩ := ended
  refine ⟨direct, ⟨missing, passage⟩, ?_, ?_, ?_⟩
  · intro handshake
    constructor
    · intro expired
      have same : missing = some handshake := verdict_inj value expired
      rwa [← same]
    · intro given
      rw [passage.unique given]
      rfl
  · constructor
    · intro succeeded
      have same : missing = none := verdict_inj value succeeded
      rwa [← same]
    · intro given
      rw [passage.unique given]
      rfl
  · rintro rfl first rest rfl
    cases passage with
    | seen request met onward => exact absurd met.pos (Nat.lt_irrefl 0)
    | givenUp request missed => rfl

end ModeChange

theorem Frozen.attach_eq (clock : Clock) (bitRate : UInt32) :
    Frozen.attach clock bitRate = (do
      ModeChange.perform 100000 clock.takeOver
      return { clock, settings := .ofBitRate bitRate }) := by
  simp only [Frozen.attach, selectClock, enterFreeze, Clock.takeOver, ModeChange.perform, bind_assoc,
    pure_bind]
  rfl

theorem Running.freeze_eq (running : Running) :
    running.freeze = (do
      ModeChange.perform running.settings.pollLimit ModeChange.freeze
      return { clock := running.clock, settings := running.settings }) := by
  simp only [Running.freeze, enterFreeze, ModeChange.freeze, ModeChange.perform, bind_assoc,
    pure_bind]
  rfl

def Plan.running (plan : Plan) (frozen : Frozen) : Running where
  clock := frozen.clock
  settings := frozen.settings
  transmitBuffer := plan.transmitBuffer
  receiveBuffer := plan.receiveBuffer

theorem Plan.apply_eq (plan : Plan) (frozen : Frozen) :
    plan.apply frozen = (do
      ModeChange.perform frozen.settings.pollLimit (plan.launch frozen.settings)
      return plan.running frozen) := by
  simp only [Plan.apply, leaveFreeze, Plan.launch, ModeChange.perform, liftM_bind, bind_assoc,
    pure_bind]
  rfl

theorem Frozen.runs_start {frozen : Frozen} {plan : Plan} {trace : List (Event registers)}
    {result : Checked (Except SetupError Running)}
    (planned : frozen.settings.plan frozen.clock = .ok (.ok plan))
    (ran : frozen.start.Runs trace result) :
    ∃ outcome, result = .ok outcome ∧ (plan.apply frozen).run.Runs trace outcome := by
  simp only [Frozen.start, planned] at ran
  obtain ⟨first, second, outcome, rfl, applied, rest⟩ := Program.runs_bind_iff.1 ran
  obtain ⟨rfl, rfl⟩ := Program.runs_done_iff.1 rest
  rw [List.append_nil]
  exact ⟨outcome, rfl, applied⟩

theorem direct_takeOver (clock : Clock) : ∀ change ∈ clock.takeOver, ∀ asked,
    change.request.Runs asked () → Direct asked := by
  have select : (Register.ctrl1.modify (Ctrl1.clksrc.put (clock.source == .peripheral))).Within
      Access.Blind := Register.modify_blind (by decide) _
  simp only [Clock.takeOver, List.forall_mem_cons, List.not_mem_nil, false_implies, implies_true,
    and_true]
  refine ⟨fun asked => direct_modifyMcr, fun asked => ?_, fun asked => direct_modifyMcr⟩
  exact direct_bind (fun _ _ => direct_of_blind select) fun _ _ _ => direct_modifyMcr

theorem Plan.direct_launch (plan : Plan) (settings : Settings) : ∀ change ∈ plan.launch settings,
    ∀ asked, change.request.Runs asked () → Direct asked := by
  simp only [Plan.launch, List.forall_mem_cons, List.not_mem_nil, false_implies, implies_true,
    and_true]
  constructor
  · intro asked
    exact direct_bind (fun _ _ => plan.direct_configure settings) fun _ _ _ => direct_modifyMcr
  · intro asked
    have blind : (Program.done () : Program registers Unit).Within Access.Blind := trivial
    exact direct_of_blind blind

section
variable {σ : Type} (handler : Handler registers σ) (state : σ)

/-- Whatever the controller shows: a call asks for its changes of mode in their order and looks for each
until it is shown, as often as the limit allows. It fails exactly at the first one that is not shown in
that many looks, with its name and without another access. -/
theorem changes_awaited :
    (∀ clock bitRate, ModeChange.Orderly 100000 clock.takeOver
      ((Frozen.attach clock bitRate).run.trace handler state)
      ((Frozen.attach clock bitRate).run.run handler state).1
      { clock, settings := .ofBitRate bitRate }) ∧
    (∀ running : Running, ModeChange.Orderly running.settings.pollLimit ModeChange.freeze
      (running.freeze.run.trace handler state) (running.freeze.run.run handler state).1
      { clock := running.clock, settings := running.settings }) ∧
    ∀ (frozen : Frozen) (plan : Plan), frozen.settings.plan frozen.clock = .ok (.ok plan) →
      ∃ outcome, (frozen.start.run handler state).1 = .ok outcome ∧
        ModeChange.Orderly frozen.settings.pollLimit (plan.launch frozen.settings)
          (frozen.start.trace handler state) outcome (plan.running frozen) := by
  refine ⟨?_, ?_, ?_⟩
  · intro clock bitRate
    apply ModeChange.orderly_of_runs (direct_takeOver clock)
    rw [← Frozen.attach_eq]
    exact Program.runs_trace handler _ state
  · intro running
    apply ModeChange.orderly_of_runs
    · intro change member asked
      obtain rfl := List.mem_singleton.1 member
      exact direct_modifyMcr
    · rw [← running.freeze_eq]
      exact Program.runs_trace handler _ state
  · intro frozen plan planned
    obtain ⟨outcome, same, applied⟩ := Frozen.runs_start planned (frozen.start.runs_trace handler state)
    rw [plan.apply_eq] at applied
    exact ⟨outcome, same, ModeChange.orderly_of_runs (plan.direct_launch frozen.settings) applied⟩

end

namespace Flicker

def device : Handler registers (List UInt32)
  | .read offset, words =>
    if offset = Register.mcr.offset then (words.headD 0, words.tail) else (0, words)
  | .write _ _, words => ((), words)

def frozen : Frozen where
  clock := .oscillator
  settings := { Settings.ofBitRate 500000 with pollLimit := 2 }

def words : List UInt32 := [0, 0, 0x09000000, 0x08000000, 0x08000000, 0x08000000, 0]

theorem changes_awaited_late : ∃ plan, frozen.settings.plan frozen.clock = .ok (.ok plan) ∧
    (frozen.start.run device words).1 = .ok (.error (.timeout .ready)) ∧
    ModeChange.Passage 2 (plan.launch frozen.settings) (frozen.start.trace device words)
      (some .ready) := by
  refine ⟨_, rfl, rfl, ?_⟩
  obtain ⟨outcome, same, orderly⟩ := (changes_awaited device words).2.2 frozen _ rfl
  have expired : (frozen.start.run device words).1 = .ok (.error (.timeout .ready)) := rfl
  rw [expired] at same
  exact (orderly.timeout_iff .ready).1 (Except.ok.inj same).symm

end Flicker

end BufferedCan
