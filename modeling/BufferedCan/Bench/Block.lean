import BufferedCan.Controller.Traffic
import BufferedCan.Hardware.Memory
import BufferedCan.Hardware.Probe

/-!
Benches for a register block that is plain memory: one tries out a single message buffer, the other
the register block as such.
-/

namespace BufferedCan

structure FrameSpec where
  id : Nat
  extended : Bool
  content : Content
  deriving DecidableEq, Repr

def FrameSpec.draft? (spec : FrameSpec) : Option Draft :=
  (Identifier.ofNat? spec.extended spec.id).map fun id => ⟨id, spec.content⟩

def Memory.prepare (memory : Memory) : List (Nat × UInt32) → Checked Memory
  | [] => .ok memory
  | (offset, value) :: rest =>
    if contains offset then (memory.write offset value).prepare rest else .error .outOfBounds

inductive BufferStep
  | setFaults (faults : List ReadFault)
  | readCode
  | arm (id : Nat) (extended fd : Bool)
  | store (frame : FrameSpec) (code : Nat)
  | fetch (limit : Nat)

inductive BufferReply
  | done
  | code (code : BufferCode)
  | message (message : Option Message)
  | invalidId
  | tooMuchData

structure BufferAnswer where
  reply : BufferReply
  changes : List (Nat × UInt32)
  log : List LogEntry

structure BufferBench where
  buffer : Buffer
  memory : Memory
  probe : Probe

namespace BufferBench

def run {α : Type} (bench : BufferBench) (program : Program registers α) : α × BufferBench :=
  match program.run (Probe.watch 0 Memory.access) (bench.memory, bench.probe) with
  | (value, (memory, probe)) => (value, { bench with memory := memory, probe := probe })

def perform (bench : BufferBench) : BufferStep → BufferReply × BufferBench
  | .setFaults faults => (.done, { bench with probe := bench.probe.setFaults 0 faults })
  | .readCode =>
    match bench.run bench.buffer.readCode with
    | (code, after) => (.code code, after)
  | .arm id extended fd =>
    match extended, Identifier.standard? id with
    | false, some value => (.done, (bench.run (bench.buffer.arm value fd)).2)
    | _, _ => (.invalidId, bench)
  | .store frame code =>
    match frame.draft? with
    | none => (.invalidId, bench)
    | some draft =>
      match draft.encode? with
      | none => (.tooMuchData, bench)
      | some message => (.done, (bench.run (bench.buffer.store message (.ofBits code))).2)
  | .fetch limit =>
    match bench.run (bench.buffer.fetch limit) with
    | (message, after) => (.message message, after)

def step (bench : BufferBench) (action : BufferStep) : BufferAnswer × BufferBench :=
  match { bench with probe := bench.probe.clearLog }.perform action with
  | (reply, after) =>
    ({ reply := reply
       changes := bench.memory.changes after.memory
       log := after.probe.record }, after)

def answers (bench : BufferBench) : List BufferStep → List BufferAnswer
  | [] => []
  | action :: rest =>
    match bench.step action with
    | (answer, after) => answer :: answers after rest

end BufferBench

inductive BlockStep
  | attach (clock : Clock) (bitRate : UInt32)
  | read (offset : Nat)
  | write (offset : Nat) (value : UInt32)
  | readRam (word : Nat)
  | writeRam (word : Nat) (value : UInt32)
  | writeRxMask (index : Nat) (value : UInt32)
  | setLastBuffer (value : Nat)
  | setInterruptMasks (value : UInt32)

inductive BlockReply
  | done
  | value (value : Nat)
  | failed (error : SetupError)
  | fault (fault : Fault)

structure BlockAnswer where
  reply : BlockReply
  changes : List (Nat × UInt32)

namespace BlockReply

def stops : BlockReply → Bool
  | fault _ => true
  | _ => false

end BlockReply

namespace Memory

def reach (memory : Memory) (offset : Nat) (program : Program registers BlockReply) :
    BlockReply × Memory :=
  if contains offset then program.run access memory else (.fault .outOfBounds, memory)

def perform (memory : Memory) : BlockStep → BlockReply × Memory
  | .attach clock bitRate =>
    match (Frozen.attach clock bitRate).run.run access memory with
    | (.ok _, after) => (.done, after)
    | (.error error, after) => (.failed error, after)
  | .read offset => memory.reach offset do return .value (← readWord offset).toNat
  | .write offset value => memory.reach offset do
    writeWord offset value
    return .done
  | .readRam word => memory.reach (ramOffset word) do
    return .value (← BufferedCan.readRam word).toNat
  | .writeRam word value => memory.reach (ramOffset word) do
    BufferedCan.writeRam word value
    return .done
  | .writeRxMask index value => memory.reach (rxMaskOffset index) do
    BufferedCan.writeRxMask index value
    return .done
  | .setLastBuffer value => memory.reach Register.mcr.offset do
    Register.mcr.modify (Mcr.maxmb.set value)
    return .value (Mcr.maxmb.get (← Register.mcr.read))
  | .setInterruptMasks value => memory.reach Register.imask1.offset do
    Register.imask1.write value
    return .value (← Register.imask1.read).toNat

def answers (memory : Memory) : List BlockStep → List BlockAnswer
  | [] => []
  | action :: rest =>
    match memory.perform action with
    | (reply, after) =>
      let answer : BlockAnswer := ⟨reply, memory.changes after⟩
      if reply.stops then [answer] else answer :: answers after rest

end Memory

end BufferedCan
