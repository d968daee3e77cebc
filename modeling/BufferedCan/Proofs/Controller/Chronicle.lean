import BufferedCan.Controller.Status
import BufferedCan.Proofs.Network.System
import BufferedCan.Proofs.Program.Obedience

/-! The calls of the software that holds one controller, on a device that may reply anything, and what
is exchanged with the device in them. -/

namespace BufferedCan

section
variable {rule : List (Event registers) → Access → Prop} {past : List (Event registers)}

theorem readWord_obeys {offset : Nat} {goal : List (Event registers) → UInt32 → Prop}
    (allowed : rule past (.read offset))
    (reaches : ∀ word, goal (past ++ [⟨.read offset, word⟩]) word) :
    (readWord offset).Obeys rule goal past :=
  ⟨allowed, reaches⟩

theorem writeWord_obeys {offset : Nat} {value : UInt32}
    {goal : List (Event registers) → Unit → Prop} (allowed : rule past (.write offset value))
    (reaches : goal (past ++ [⟨.write offset value, ()⟩]) ()) :
    (writeWord offset value).Obeys rule goal past :=
  ⟨allowed, fun _ => reaches⟩

end

namespace Attempt

variable {ε α β : Type} {rule : List (Event registers) → Access → Prop}
  {goal : List (Event registers) → Except ε β → Prop} {past : List (Event registers)}

theorem obeys_bind {attempt : Attempt ε α} {next : α → Attempt ε β} :
    (attempt >>= next).run.Obeys rule goal past ↔
      attempt.run.Obeys rule (fun now outcome =>
        match outcome with
        | .ok value => (next value).run.Obeys rule goal now
        | .error error => goal now (.error error)) past := by
  rw [ExceptT.run_bind, Program.obeys_bind]
  constructor
  · intro obeys
    exact obeys.imp fun now outcome met => by cases outcome <;> exact met
  · intro obeys
    exact obeys.imp fun now outcome met => by cases outcome <;> exact met

theorem obeys_lift {program : Program registers α} {next : α → Attempt ε β} :
    ((liftM program : Attempt ε α) >>= next).run.Obeys rule goal past ↔
      program.Obeys rule (fun now value => (next value).run.Obeys rule goal now) past := by
  have lifted : (liftM program : Attempt ε α).run = program >>= fun value => .done (.ok value) := rfl
  rw [obeys_bind, lifted, Program.obeys_bind]
  exact Iff.rfl

end Attempt

inductive Request
  | transmit (message : Message)
  | send (id : Identifier) (payload : List UInt8)
  | receive
  | protocolStatus
  | errorCounters
  | timeStamp

namespace Request

def program (running : Running) : Request → Program registers Unit
  | transmit message => do let _ ← running.transmit message
  | send id payload => do let _ ← running.transmitPayload id payload
  | receive => do let _ ← running.receive
  | protocolStatus => do let _ ← Running.protocolStatus
  | errorCounters => do let _ ← Running.errorCounters
  | timeStamp => do let _ ← Running.timeStamp

end Request

inductive Call
  | attach (clock : Clock) (bitRate : UInt32)
  | adjust (settings : Settings)
  | finalize
  | configure
  | use (request : Request)

namespace Call

def seated : Except SetupError Seat → Seat
  | .ok seat => seat
  | .error _ => .gone

/-- What the call does on behalf of whoever holds the controller, and who holds it then. Not every
holder can make every call. -/
def program : Call → Seat → Option (Program registers Seat)
  | attach clock bitRate, _ => some do
    let outcome ← (Frozen.attach clock bitRate).run
    return seated (outcome.map .frozen)
  | adjust settings, .frozen frozen => some do
    return .frozen { frozen with settings := settings }
  | finalize, .frozen frozen => some do
    match ← frozen.start with
    | .error _ => return .gone
    | .ok outcome => return seated (outcome.map .running)
  | configure, .running running => some do
    let outcome ← running.freeze.run
    return seated (outcome.map .frozen)
  | use request, .running running => some do
    request.program running
    return .running running
  | _, _ => none

end Call

structure Entry where
  call : Call
  accesses : List (Event registers)

def accesses (entries : List Entry) : List (Event registers) := entries.flatMap Entry.accesses

/-- `Chronicle entries seat`: the calls of the entries can follow one another, the first on a controller
that nobody holds, with what the device replied in them, and then `seat` holds the controller. -/
inductive Chronicle : List Entry → Seat → Prop
  | nil : Chronicle [] .gone
  | entry {entries : List Entry} {seat after : Seat} {call : Call} {program : Program registers Seat}
      {trace : List (Event registers)} :
      Chronicle entries seat → call.program seat = some program → program.Runs trace after →
        Chronicle (entries ++ [⟨call, trace⟩]) after

/-- If every call obeys its rule, given what the earlier calls have left behind, and leaves as much
behind, then every access of a chronicle is one that the rule of its call allows. -/
theorem Chronicle.obeys {rule : Call → List (Event registers) → Access → Prop}
    (keeps : List (Event registers) → Seat → Prop) (nobody : keeps [] .gone)
    (step : ∀ {call : Call} {seat : Seat} {program : Program registers Seat}
      {past : List (Event registers)}, call.program seat = some program → keeps past seat →
        program.Obeys (rule call) keeps past)
    {entries : List Entry} {seat : Seat} (chronicle : Chronicle entries seat) :
    keeps (accesses entries) seat ∧
      ∀ earlier call before event after later,
        entries = earlier ++ ⟨call, before ++ event :: after⟩ :: later →
          rule call (accesses earlier ++ before) event.call := by
  induction chronicle with
  | nil => exact ⟨nobody, fun earlier call before event after later split => by simp at split⟩
  | entry _ called ran ih =>
      obtain ⟨reached, allowed⟩ := (step called ih.1).runs ran
      refine ⟨by simpa [accesses] using reached, ?_⟩
      intro earlier call before event after later split
      rcases List.eq_nil_or_concat later with rfl | ⟨front, last, rfl⟩
      · obtain ⟨rfl, same⟩ := List.append_inj' split rfl
        obtain ⟨rfl, rfl⟩ := Entry.mk.inj (List.cons.inj same).1
        exact allowed before event after rfl
      · rw [List.concat_eq_append, ← List.cons_append, ← List.append_assoc] at split
        exact ih.2 earlier call before event after front (List.append_inj' split rfl).1

end BufferedCan
