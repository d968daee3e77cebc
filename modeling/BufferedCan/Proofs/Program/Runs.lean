import BufferedCan.Proofs.Program.Obedience

/-! What programs exchange with a device that may reply anything: a single call, a change of a
register, a loop of writes, calls to one of two devices. -/

namespace BufferedCan

namespace Program

variable {face : Interface} {α β : Type}

theorem runs_call_iff {call : face.Call} {reply : face.Reply call} {trace : List (Event face)} :
    (Program.ask call .done).Runs trace reply ↔ trace = [⟨call, reply⟩] := by
  rw [runs_ask_iff]
  constructor
  · rintro ⟨answer, rest, rfl, ran⟩
    obtain ⟨rfl, rfl⟩ := runs_done_iff.1 ran
    rfl
  · rintro rfl
    exact ⟨reply, [], rfl, .done _⟩

theorem Runs.unique {program : Program face α} {trace : List (Event face)} {first second : α}
    (ran : program.Runs trace first) (again : program.Runs trace second) : first = second := by
  induction ran with
  | done value => exact (runs_done_iff.1 again).2.symm
  | ask ran ih =>
      obtain ⟨reply, rest, same, onward⟩ := runs_ask_iff.1 again
      obtain ⟨event, rfl⟩ := List.cons.inj same
      obtain ⟨-, replies⟩ := Event.mk.inj event
      cases replies
      exact ih onward

theorem Within.runs {allowed : face.Call → Prop} {program : Program face α}
    {trace : List (Event face)} {value : α} (within : program.Within allowed)
    (ran : program.Runs trace value) : ∀ event ∈ trace, allowed event.call := by
  induction ran with
  | done value =>
      intro event member
      cases member
  | ask ran ih =>
      intro event member
      rcases List.mem_cons.1 member with rfl | later
      · exact within.1
      · exact ih (within.2 _) event later

theorem run_keeps {σ τ : Type} {handler : Handler face σ} (view : σ → τ) {program : Program face α}
    {state : σ} (kept : ∀ event ∈ program.trace handler state, ∀ before,
      view (handler event.call before).2 = view before) :
    view (program.run handler state).2 = view state := by
  induction program generalizing state with
  | done value => rfl
  | ask call next ih =>
      have first := kept _ List.mem_cons_self state
      exact (ih _ fun event later => kept event (List.mem_cons_of_mem _ later)).trans first

end Program

/-! Devices side by side. -/

section
variable {left right : Interface} {α : Type}

def Event.onLeft (event : Event left) : Event (left.both right) := ⟨.inl event.call, event.reply⟩

def Event.onRight (event : Event right) : Event (left.both right) := ⟨.inr event.call, event.reply⟩

theorem Program.runs_onLeft {program : Program left α} {trace : List (Event (left.both right))}
    {value : α} (ran : program.onLeft.Runs trace value) :
    ∃ own, trace = own.map Event.onLeft ∧ program.Runs own value := by
  induction program generalizing trace with
  | done result =>
      obtain ⟨rfl, rfl⟩ := runs_done_iff.1 ran
      exact ⟨[], rfl, .done _⟩
  | ask call next ih =>
      obtain ⟨reply, rest, rfl, onward⟩ := runs_ask_iff.1 ran
      obtain ⟨own, rfl, later⟩ := ih reply onward
      exact ⟨⟨call, reply⟩ :: own, rfl, .ask later⟩

theorem Program.runs_onRight {program : Program right α} {trace : List (Event (left.both right))}
    {value : α} (ran : program.onRight.Runs trace value) :
    ∃ own, trace = own.map Event.onRight ∧ program.Runs own value := by
  induction program generalizing trace with
  | done result =>
      obtain ⟨rfl, rfl⟩ := runs_done_iff.1 ran
      exact ⟨[], rfl, .done _⟩
  | ask call next ih =>
      obtain ⟨reply, rest, rfl, onward⟩ := runs_ask_iff.1 ran
      obtain ⟨own, rfl, later⟩ := ih reply onward
      exact ⟨⟨call, reply⟩ :: own, rfl, .ask later⟩

end

section
variable {trace : List (Event registers)}

theorem runs_readWord_iff {offset : Nat} {word : UInt32} :
    (readWord offset).Runs trace word ↔ trace = [⟨.read offset, word⟩] :=
  Program.runs_call_iff

theorem runs_writeWord_iff {offset : Nat} {value : UInt32} :
    (writeWord offset value).Runs trace () ↔ trace = [⟨.write offset value, ()⟩] :=
  Program.runs_call_iff

def Register.modification (register : Register) (change : UInt32 → UInt32) (word : UInt32) :
    List (Event registers) :=
  [⟨.read register.offset, word⟩, ⟨.write register.offset (change word), ()⟩]

theorem runs_modify_iff {register : Register} {change : UInt32 → UInt32} :
    (register.modify change).Runs trace () ↔
      ∃ word, trace = register.modification change word := by
  rw [Register.modify, Program.runs_bind_iff]
  constructor
  · rintro ⟨first, second, word, rfl, read, write⟩
    obtain rfl := runs_readWord_iff.1 read
    obtain rfl := runs_writeWord_iff.1 write
    exact ⟨word, rfl⟩
  · rintro ⟨word, rfl⟩
    exact ⟨_, _, word, rfl, runs_readWord_iff.2 rfl, runs_writeWord_iff.2 rfl⟩

theorem runs_forEach_writeWord {α : Type} {values : List α} {place : α → Nat} {content : α → UInt32}
    (ran : (Program.forEach values fun value => writeWord (place value) (content value)).Runs
      trace ()) :
    trace = values.map fun value => ⟨.write (place value) (content value), ()⟩ := by
  induction values generalizing trace with
  | nil => exact (Program.runs_done_iff.1 ran).1
  | cons value rest ih =>
      obtain ⟨first, second, _, rfl, wrote, ran⟩ := Program.runs_bind_iff.1 ran
      rw [runs_writeWord_iff.1 wrote, ih ran]
      rfl

end

end BufferedCan
