import BufferedCan.Controller.Access

/-! Programs on a device that may reply anything. A rule says what may be asked of the device after what
has been exchanged with it; a program obeys the rule if no reply makes it break it. -/

namespace BufferedCan

namespace Program

variable {face : Interface} {α β : Type}

/-- Whatever is replied, each call of the program is allowed by the rule after all that was exchanged
before, and the program ends in the goal. -/
def Obeys (rule : List (Event face) → face.Call → Prop) (goal : List (Event face) → α → Prop) :
    Program face α → List (Event face) → Prop
  | .done value, past => goal past value
  | .ask call next, past =>
    rule past call ∧ ∀ reply, (next reply).Obeys rule goal (past ++ [⟨call, reply⟩])

variable {rule : List (Event face) → face.Call → Prop}

theorem obeys_bind {goal : List (Event face) → β → Prop} {program : Program face α}
    {next : α → Program face β} {past : List (Event face)} :
    (program >>= next).Obeys rule goal past ↔
      program.Obeys rule (fun now value => (next value).Obeys rule goal now) past := by
  induction program generalizing past with
  | done value => exact Iff.rfl
  | ask call rest ih =>
      rw [ask_bind]
      constructor
      · rintro ⟨allowed, onward⟩
        exact ⟨allowed, fun reply => ih reply |>.1 (onward reply)⟩
      · rintro ⟨allowed, onward⟩
        exact ⟨allowed, fun reply => ih reply |>.2 (onward reply)⟩

theorem Obeys.imp {goal weaker : List (Event face) → α → Prop} {program : Program face α}
    {past : List (Event face)} (obeys : program.Obeys rule goal past)
    (implies : ∀ now value, goal now value → weaker now value) :
    program.Obeys rule weaker past := by
  induction program generalizing past with
  | done value => exact implies past value obeys
  | ask call rest ih => exact ⟨obeys.1, fun reply => ih reply (obeys.2 reply)⟩

theorem obeys_forEach (keeps : List (Event face) → Prop) {values : List α}
    {step : α → Program face Unit} {past : List (Event face)}
    (round : ∀ value ∈ values, ∀ now, keeps now →
      (step value).Obeys rule (fun after _ => keeps after) now)
    (holds : keeps past) :
    (Program.forEach values step).Obeys rule (fun after _ => keeps after) past := by
  induction values generalizing past with
  | nil => exact holds
  | cons value rest ih =>
      rw [Program.forEach, obeys_bind]
      have first := round value List.mem_cons_self past holds
      exact first.imp fun now _ kept =>
        ih (fun other member => round other (List.mem_cons_of_mem value member)) kept

theorem obeys_collect {values : List α} {step : α → Program face β} {past : List (Event face)}
    (round : ∀ value ∈ values, ∀ now, (step value).Obeys rule (fun _ _ => True) now) :
    (Program.collect values step).Obeys rule (fun _ _ => True) past := by
  induction values generalizing past with
  | nil => trivial
  | cons value rest ih =>
      rw [Program.collect, obeys_bind]
      refine (round value List.mem_cons_self past).imp fun now first _ => ?_
      rw [obeys_bind]
      exact (ih fun other member => round other (List.mem_cons_of_mem value member)).imp
        fun _ _ _ => trivial

theorem Obeys.runs {goal : List (Event face) → α → Prop} {program : Program face α}
    {past trace : List (Event face)} {value : α} (obeys : program.Obeys rule goal past)
    (ran : program.Runs trace value) :
    goal (past ++ trace) value ∧
      ∀ before event after, trace = before ++ event :: after → rule (past ++ before) event.call := by
  induction ran generalizing past with
  | done value =>
      rw [List.append_nil]
      exact ⟨obeys, fun before event after split => by simp at split⟩
  | ask ran ih =>
      obtain ⟨reached, allowed⟩ := ih (obeys.2 _)
      refine ⟨by rwa [List.append_assoc] at reached, fun before event after split => ?_⟩
      cases before with
      | nil =>
          obtain ⟨rfl, -⟩ := List.cons.inj split
          rw [List.append_nil]
          exact obeys.1
      | cons first earlier =>
          obtain ⟨rfl, tail⟩ := List.cons.inj split
          have rest := allowed earlier event after tail
          rwa [List.append_assoc] at rest

def trace {σ : Type} (handler : Handler face σ) : Program face α → σ → List (Event face)
  | .done _, _ => []
  | .ask call next, state =>
    match handler call state with
    | (reply, after) => ⟨call, reply⟩ :: (next reply).trace handler after

theorem runs_trace {σ : Type} (handler : Handler face σ) (program : Program face α) (state : σ) :
    program.Runs (program.trace handler state) (program.run handler state).1 := by
  induction program generalizing state with
  | done value => exact .done value
  | ask call next ih => exact .ask (ih _ _)

def Within (allowed : face.Call → Prop) : Program face α → Prop
  | .done _ => True
  | .ask call next => allowed call ∧ ∀ reply, (next reply).Within allowed

section
variable {allowed : face.Call → Prop}

theorem within_bind {program : Program face α} {next : α → Program face β}
    (first : program.Within allowed) (rest : ∀ value, (next value).Within allowed) :
    (program >>= next).Within allowed := by
  induction program with
  | done value => exact rest value
  | ask call onward ih => exact ⟨first.1, fun reply => ih reply (first.2 reply)⟩

theorem within_forEach {values : List α} {step : α → Program face Unit}
    (round : ∀ value ∈ values, (step value).Within allowed) :
    (Program.forEach values step).Within allowed := by
  induction values with
  | nil => trivial
  | cons value rest ih =>
      refine within_bind (round value List.mem_cons_self) fun _ => ih ?_
      intro other member
      exact round other (List.mem_cons_of_mem value member)

theorem Within.trace {σ : Type} {program : Program face α} (within : program.Within allowed)
    (handler : Handler face σ) (state : σ) :
    ∀ event ∈ program.trace handler state, allowed event.call := by
  induction program generalizing state with
  | done value =>
      intro event member
      cases member
  | ask call next ih =>
      intro event member
      rcases List.mem_cons.1 member with rfl | later
      · exact within.1
      · exact ih _ (within.2 _) _ event later

end

end Program

end BufferedCan
