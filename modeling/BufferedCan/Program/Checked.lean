import BufferedCan.Program

/-!
Devices that may refuse a call. A refused call ends the program there, with a fault, and leaves the
device in whatever state the call left it. A fault is not one of the errors that a call reports. A
device that refuses nothing runs programs as before.
-/

namespace BufferedCan

inductive Fault
  | overflow
  | outOfBounds
  deriving DecidableEq, Repr

abbrev Checked := Except Fault

abbrev CheckedHandler (face : Interface) (σ : Type) :=
  (call : face.Call) → σ → Checked (face.Reply call) × σ

def Handler.within {face : Interface} {σ : Type} (handler : Handler face σ)
    (allowed : face.Call → Bool) : CheckedHandler face σ
  | call, state =>
    if allowed call then
      match handler call state with
      | (reply, after) => (.ok reply, after)
    else (.error .outOfBounds, state)

def Handler.checked {face : Interface} {σ : Type} (handler : Handler face σ) :
    CheckedHandler face σ :=
  handler.within fun _ => true

def CheckedHandler.both {left right : Interface} {σ τ : Type} (first : CheckedHandler left σ)
    (second : CheckedHandler right τ) : CheckedHandler (left.both right) (σ × τ)
  | .inl request, state =>
    match first request state.1 with
    | (reply, after) => (reply, (after, state.2))
  | .inr request, state =>
    match second request state.2 with
    | (reply, after) => (reply, (state.1, after))

namespace Program

variable {face : Interface} {α β σ : Type}

def runChecked (handler : CheckedHandler face σ) : Program face α → σ → Checked α × σ
  | .done value, state => (.ok value, state)
  | .ask request next, state =>
    match handler request state with
    | (.error fault, after) => (.error fault, after)
    | (.ok reply, after) => (next reply).runChecked handler after

theorem runChecked_checked (handler : Handler face σ) (program : Program face α) (state : σ) :
    program.runChecked handler.checked state =
      (.ok (program.run handler state).1, (program.run handler state).2) := by
  induction program generalizing state with
  | done value => rfl
  | ask request next ih =>
      simp only [runChecked, Handler.checked, Handler.within, if_true, run_ask] at ih ⊢
      exact ih _ _

theorem runChecked_bind (handler : CheckedHandler face σ) (program : Program face α)
    (next : α → Program face β) (state : σ) :
    (program >>= next).runChecked handler state =
      match program.runChecked handler state with
      | (.error fault, after) => (.error fault, after)
      | (.ok value, after) => (next value).runChecked handler after := by
  induction program generalizing state with
  | done value => rfl
  | ask request rest ih =>
      simp only [ask_bind, runChecked]
      split
      · rfl
      · exact ih _ _

theorem runChecked_onLeft {left right : Interface} {τ : Type} (first : Handler left σ)
    (second : CheckedHandler right τ) (program : Program left α) (state : σ × τ) :
    program.onLeft.runChecked (first.checked.both second) state =
      (.ok (program.run first state.1).1, (program.run first state.1).2, state.2) := by
  induction program generalizing state with
  | done value => rfl
  | ask request next ih =>
      simp only [onLeft, runChecked, CheckedHandler.both, Handler.checked, Handler.within, if_true,
        run_ask] at ih ⊢
      exact ih _ _

theorem runChecked_onRight {left right : Interface} {τ : Type} (first : CheckedHandler left σ)
    (second : CheckedHandler right τ) (program : Program right α) (state : σ × τ) :
    program.onRight.runChecked (first.both second) state =
      ((program.runChecked second state.2).1, state.1, (program.runChecked second state.2).2) := by
  induction program generalizing state with
  | done value => rfl
  | ask request next ih =>
      simp only [onRight, runChecked, CheckedHandler.both]
      cases answered : second request state.2 with
      | mk reply after =>
          cases reply with
          | error fault => rfl
          | ok reply => exact ih reply (state.1, after)

end Program

end BufferedCan
