/-!
Programs that talk to devices. A program is a tree of calls: each call goes to the device and the
rest of the program depends on the reply. The tree says nothing about the device, so one program can
be run on a model of the device, watched by a probe, or reasoned about for every reply there is.
-/

namespace BufferedCan

structure Interface where
  Call : Type
  Reply : Call → Type

inductive Program (face : Interface) (α : Type) where
  | done (value : α)
  | ask (call : face.Call) (next : face.Reply call → Program face α)

/-- How a device in state `σ` answers a call and where the call leaves it. -/
abbrev Handler (face : Interface) (σ : Type) :=
  (call : face.Call) → σ → face.Reply call × σ

structure Event (face : Interface) where
  call : face.Call
  reply : face.Reply call

namespace Program

variable {face : Interface} {α β γ σ : Type}

def bind : Program face α → (α → Program face β) → Program face β
  | .done value, next => next value
  | .ask call rest, next => .ask call fun reply => (rest reply).bind next

instance : Monad (Program face) where
  pure := .done
  bind := bind

@[simp] theorem pure_eq (value : α) : (pure value : Program face α) = .done value := rfl

@[simp] theorem done_bind (value : α) (next : α → Program face β) :
    (Program.done value >>= next) = next value := rfl

@[simp] theorem ask_bind (call : face.Call) (rest : face.Reply call → Program face α)
    (next : α → Program face β) :
    (Program.ask call rest >>= next) = .ask call fun reply => rest reply >>= next := rfl

theorem bind_done (program : Program face α) : (program >>= .done) = program := by
  induction program with
  | done value => rfl
  | ask call rest ih => simp only [ask_bind, ih]

theorem bind_assoc (program : Program face α) (first : α → Program face β)
    (second : β → Program face γ) :
    (program >>= first >>= second) = (program >>= fun value => first value >>= second) := by
  induction program with
  | done value => rfl
  | ask call rest ih => simp only [ask_bind, ih]

instance : LawfulMonad (Program face) :=
  LawfulMonad.mk' _ (fun program => bind_done program) (fun _ _ => rfl) bind_assoc

def run (handler : Handler face σ) : Program face α → σ → α × σ
  | .done value, state => (value, state)
  | .ask request next, state =>
    match handler request state with
    | (reply, after) => (next reply).run handler after

@[simp] theorem run_done (handler : Handler face σ) (value : α) (state : σ) :
    (Program.done value).run handler state = (value, state) := rfl

theorem run_ask (handler : Handler face σ) (request : face.Call)
    (next : face.Reply request → Program face α) (state : σ) :
    (Program.ask request next).run handler state =
      (next (handler request state).1).run handler (handler request state).2 := rfl

theorem run_bind (handler : Handler face σ) (program : Program face α)
    (next : α → Program face β) (state : σ) :
    (program >>= next).run handler state =
      (next (program.run handler state).1).run handler (program.run handler state).2 := by
  induction program generalizing state with
  | done value => rfl
  | ask request rest ih => simp only [ask_bind, run_ask, ih]

/-- `Runs program trace value`: with the replies in `trace` the program makes exactly the calls in
`trace`, in order, and ends with `value`. The replies are those of a device that may do anything. -/
inductive Runs : Program face α → List (Event face) → α → Prop
  | done (value : α) : Runs (.done value) [] value
  | ask {request : face.Call} {next : face.Reply request → Program face α}
      {reply : face.Reply request} {trace : List (Event face)} {value : α} :
      Runs (next reply) trace value → Runs (.ask request next) (⟨request, reply⟩ :: trace) value

theorem runs_done_iff {value result : α} {trace : List (Event face)} :
    Runs (.done value) trace result ↔ trace = [] ∧ result = value := by
  constructor
  · intro ran
    cases ran
    exact ⟨rfl, rfl⟩
  · rintro ⟨rfl, rfl⟩
    exact .done _

theorem runs_ask_iff {request : face.Call} {next : face.Reply request → Program face α}
    {result : α} {trace : List (Event face)} :
    Runs (.ask request next) trace result ↔
      ∃ reply rest, trace = ⟨request, reply⟩ :: rest ∧ Runs (next reply) rest result := by
  constructor
  · intro ran
    cases ran with
    | ask ran => exact ⟨_, _, rfl, ran⟩
  · rintro ⟨reply, rest, rfl, ran⟩
    exact .ask ran

theorem runs_bind_iff {program : Program face α} {next : α → Program face β}
    {result : β} {trace : List (Event face)} :
    Runs (program >>= next) trace result ↔
      ∃ first second value, trace = first ++ second ∧ Runs program first value ∧
        Runs (next value) second result := by
  induction program generalizing trace with
  | done value =>
      constructor
      · intro ran
        exact ⟨[], trace, value, rfl, .done _, ran⟩
      · rintro ⟨first, second, middle, rfl, ran, rest⟩
        obtain ⟨rfl, rfl⟩ := runs_done_iff.1 ran
        exact rest
  | ask request rest ih =>
      rw [ask_bind, runs_ask_iff]
      constructor
      · rintro ⟨reply, tail, rfl, ran⟩
        obtain ⟨first, second, value, rfl, left, right⟩ := (ih reply).1 ran
        exact ⟨⟨request, reply⟩ :: first, second, value, rfl, .ask left, right⟩
      · rintro ⟨first, second, value, rfl, left, right⟩
        obtain ⟨reply, tail, rfl, ran⟩ := runs_ask_iff.1 left
        exact ⟨reply, tail ++ second, rfl, (ih reply).2 ⟨tail, second, value, rfl, ran, right⟩⟩

end Program

@[reducible] def Interface.both (left right : Interface) : Interface where
  Call := left.Call ⊕ right.Call
  Reply := Sum.rec left.Reply right.Reply

def Handler.both {left right : Interface} {σ τ : Type} (first : Handler left σ)
    (second : Handler right τ) : Handler (left.both right) (σ × τ)
  | .inl request, state =>
    match first request state.1 with
    | (reply, after) => (reply, (after, state.2))
  | .inr request, state =>
    match second request state.2 with
    | (reply, after) => (reply, (state.1, after))

namespace Program

variable {left right : Interface} {α σ τ : Type}

def onLeft : Program left α → Program (left.both right) α
  | .done value => .done value
  | .ask request next => .ask (.inl request) fun reply => (next reply).onLeft

def onRight : Program right α → Program (left.both right) α
  | .done value => .done value
  | .ask request next => .ask (.inr request) fun reply => (next reply).onRight

theorem run_onLeft (first : Handler left σ) (second : Handler right τ) (program : Program left α)
    (state : σ × τ) :
    program.onLeft.run (first.both second) state =
      ((program.run first state.1).1, (program.run first state.1).2, state.2) := by
  induction program generalizing state with
  | done value => rfl
  | ask request next ih => simp only [onLeft, run_ask, ih, Handler.both]

theorem run_onRight (first : Handler left σ) (second : Handler right τ)
    (program : Program right α) (state : σ × τ) :
    program.onRight.run (first.both second) state =
      ((program.run second state.2).1, state.1, (program.run second state.2).2) := by
  induction program generalizing state with
  | done value => rfl
  | ask request next ih => simp only [onRight, run_ask, ih, Handler.both]

end Program

end BufferedCan
