import BufferedCan.Proofs.Controller.Chronicle
import BufferedCan.Proofs.Controller.Modes

/-! Settings are written only to a controller that holds still. Software asks for a mode in which the
controller leaves the bus alone, sees it acknowledged, and writes settings until it asks for another
mode. Nothing here is assumed of the controller: it may reply anything at any time. -/

namespace BufferedCan

inductive Stillness
  | disabled
  | frozen

namespace Stillness

def asked : Stillness → UInt32 → Bool
  | disabled => Mcr.asksForLowPower
  | frozen => Mcr.asksForFreeze

def shown : Stillness → UInt32 → Bool
  | disabled => Mcr.lpmack.isSet
  | frozen => Mcr.frzack.isSet

end Stillness

namespace Access

def SetsMode : Access → Prop
  | .read _ => False
  | .write offset _ => offset = Register.mcr.offset

/-- A write to a register that only takes settings, or to an individual receive mask. -/
def Configures : Access → Prop
  | .read _ => False
  | .write offset _ =>
    (∃ register ∈ [Register.ctrl1, .ctrl2, .cbt, .fdCbt, .fdCtrl, .rxMgMask],
      offset = register.offset) ∨
    ∃ index < rxMaskCount, offset = rxMaskOffset index

end Access

def Asked (state : Stillness) (past : List (Event registers)) : Prop :=
  ∃ before word after, past = before ++ ⟨.write Register.mcr.offset word, ()⟩ :: after ∧
    state.asked word = true ∧ ∀ event ∈ after, ¬event.call.SetsMode

/-- The mode was asked for, a later read of the configuration register showed it, and no other mode
was asked for since. -/
def Acknowledged (state : Stillness) (past : List (Event registers)) : Prop :=
  ∃ before answer after, past = before ++ ⟨.read Register.mcr.offset, answer⟩ :: after ∧
    Asked state before ∧ state.shown answer = true ∧ ∀ event ∈ after, ¬event.call.SetsMode

namespace Stillness

variable {state : Stillness} {past : List (Event registers)}

theorem asked_now {word : UInt32} (asks : state.asked word = true) :
    Asked state (past ++ [⟨.write Register.mcr.offset word, ()⟩]) :=
  ⟨past, word, [], rfl, asks, fun event member => by simp at member⟩

theorem asked_snoc {event : Event registers} (asked : Asked state past)
    (quiet : ¬event.call.SetsMode) : Asked state (past ++ [event]) := by
  obtain ⟨before, word, after, rfl, asks, none⟩ := asked
  refine ⟨before, word, after ++ [event], by simp, asks, fun other member => ?_⟩
  rcases List.mem_append.1 member with old | new
  · exact none other old
  · rwa [List.mem_singleton.1 new]

theorem acknowledged_now {answer : UInt32} (asked : Asked state past)
    (shows : state.shown answer = true) :
    Acknowledged state (past ++ [⟨.read Register.mcr.offset, answer⟩]) :=
  ⟨past, answer, [], rfl, asked, shows, fun event member => by simp at member⟩

theorem acknowledged_snoc {event : Event registers} (known : Acknowledged state past)
    (quiet : ¬event.call.SetsMode) : Acknowledged state (past ++ [event]) := by
  obtain ⟨before, answer, after, rfl, asked, shows, none⟩ := known
  refine ⟨before, answer, after ++ [event], by simp, asked, shows, fun other member => ?_⟩
  rcases List.mem_append.1 member with old | new
  · exact none other old
  · rwa [List.mem_singleton.1 new]

end Stillness

namespace Call

/-- Taking a controller over sets the clock of a disabled controller; every other call that writes
settings writes them to a frozen one. -/
def clearance : Call → Stillness
  | attach _ _ => .disabled
  | _ => .frozen

/-- Taking a controller over selects the clock. Every other write to the same register writes back the
selection that was just read. -/
def Clocked (call : Call) (past : List (Event registers)) (word : UInt32) : Prop :=
  match call with
  | attach clock _ => Ctrl1.clksrc.isSet word = (clock.source == .peripheral)
  | _ => ∃ before answer, past = before ++ [⟨.read Register.ctrl1.offset, answer⟩] ∧
      Ctrl1.clksrc.isSet word = Ctrl1.clksrc.isSet answer

structure Permits (call : Call) (past : List (Event registers)) (access : Access) : Prop where
  still : access.Configures → Acknowledged call.clearance past
  clocked : ∀ word, access = .write Register.ctrl1.offset word → call.Clocked past word

variable {call : Call} {past : List (Event registers)}

theorem permits_of_plain {access : Access} (plain : ¬access.Configures) :
    call.Permits past access := by
  refine ⟨fun configures => absurd configures plain, fun word same => ?_⟩
  subst same
  exact absurd (.inl ⟨.ctrl1, by simp, rfl⟩) plain

theorem permits_read (offset : Nat) : call.Permits past (.read offset) :=
  permits_of_plain fun configures => configures

theorem plain_ram {word : Nat} (value : UInt32) (bound : word < ramWords) :
    ¬(Access.write (ramOffset word) value).Configures := by
  rintro (⟨register, member, same⟩ | ⟨index, -, same⟩)
  · simp only [ramWords, ramOffset] at bound same
    cases register <;> simp only [Register.offset] at same <;> omega
  · simp only [ramWords, ramOffset, rxMaskOffset] at bound same
    omega

theorem plain_register {register : Register} (value : UInt32)
    (apart : register ∉ [Register.ctrl1, .ctrl2, .cbt, .fdCbt, .fdCtrl, .rxMgMask]) :
    ¬(Access.write register.offset value).Configures := by
  rintro (⟨other, member, same⟩ | ⟨index, bound, same⟩)
  · exact apart (Register.offset_injective same ▸ member)
  · simp only [rxMaskOffset, rxMaskCount] at bound same
    cases register <;> simp only [Register.offset] at same <;> omega

end Call

section
variable {call : Call} {past : List (Event registers)}

theorem await_obeys (handshake : Handshake) (limit : Nat) :
    (handshake.await limit).Obeys call.Permits (fun _ _ => True) past := by
  induction limit generalizing past with
  | zero => trivial
  | succ limit ih =>
      rw [Handshake.await, Program.obeys_bind]
      refine readWord_obeys (Call.permits_read _) fun answer => ?_
      by_cases reached : handshake.reached answer = true
      · rw [if_pos reached]
        trivial
      · rw [if_neg reached]
        exact ih

theorem await_acknowledged (state : Stillness) (handshake : Handshake) (limit : Nat)
    (shows : ∀ word, handshake.reached word = true → state.shown word = true)
    (asked : Asked state past) :
    (handshake.await limit).Obeys call.Permits
      (fun now outcome => outcome = .ok () → Acknowledged state now) past := by
  induction limit generalizing past with
  | zero => exact fun ended => by simp at ended
  | succ limit ih =>
      rw [Handshake.await, Program.obeys_bind]
      refine readWord_obeys (Call.permits_read _) fun answer => ?_
      by_cases reached : handshake.reached answer = true
      · rw [if_pos reached]
        exact fun _ => Stillness.acknowledged_now asked (shows answer reached)
      · rw [if_neg reached]
        exact ih (Stillness.asked_snoc asked fun sets => sets)

theorem modifyMcr_obeys {change : UInt32 → UInt32} {goal : List (Event registers) → Unit → Prop}
    (reaches : ∀ before word, goal (before ++ [⟨.write Register.mcr.offset (change word), ()⟩]) ()) :
    (Register.mcr.modify change).Obeys call.Permits goal past := by
  rw [Register.modify, Program.obeys_bind]
  refine readWord_obeys (Call.permits_read _) fun word => ?_
  exact writeWord_obeys (Call.permits_of_plain (Call.plain_register _ (by decide)))
    (reaches _ word)

theorem enterFreeze_obeys (limit : Nat) :
    (enterFreeze limit).run.Obeys call.Permits
      (fun now outcome => outcome = .ok () → Acknowledged .frozen now) past := by
  rw [enterFreeze, Attempt.obeys_lift]
  refine modifyMcr_obeys fun before word => ?_
  exact await_acknowledged .frozen .freezeEntry limit (fun _ reached => reached)
    (Stillness.asked_now (Mcr.asksForFreeze_freezing word))

theorem leaveFreeze_obeys (limit : Nat) :
    (leaveFreeze limit).run.Obeys call.Permits (fun _ _ => True) past := by
  rw [leaveFreeze, Attempt.obeys_lift]
  refine modifyMcr_obeys fun before word => ?_
  rw [Attempt.obeys_bind]
  refine (await_obeys .freezeExit limit).imp fun now outcome _ => ?_
  cases outcome with
  | error error => trivial
  | ok value => exact await_obeys .ready limit

theorem selectClock_obeys (clock : Clock) (bitRate : UInt32) (limit : Nat) :
    (selectClock clock.source limit).run.Obeys (Call.attach clock bitRate).Permits
      (fun _ _ => True) past := by
  rw [selectClock, Attempt.obeys_lift]
  refine modifyMcr_obeys fun before word => ?_
  have asks : Stillness.disabled.asked (Mcr.mdis.put true word) = true :=
    Field.isSet_put_bit 31 (by decide) true word
  rw [Attempt.obeys_bind]
  refine (await_acknowledged .disabled .lowPowerEntry limit (fun _ reached => reached)
    (Stillness.asked_now asks)).imp fun now outcome acknowledged => ?_
  cases outcome with
  | error error => trivial
  | ok value =>
      have disabled := acknowledged rfl
      refine Attempt.obeys_lift.2 (Program.obeys_bind.2 ?_)
      refine readWord_obeys (Call.permits_read _) fun answer => ?_
      refine writeWord_obeys ⟨fun _ => ?_, fun selected same => ?_⟩ ?_
      · exact Stillness.acknowledged_snoc disabled fun sets => sets
      · obtain rfl : Ctrl1.clksrc.put (clock.source == .peripheral) answer = selected :=
          (Access.write.inj same).2
        exact Field.isSet_put_bit 13 (by decide) _ answer
      · rw [Attempt.obeys_lift]
        refine modifyMcr_obeys fun earlier again => ?_
        exact await_obeys .lowPowerExit limit

theorem attach_obeys (clock : Clock) (bitRate : UInt32) :
    (Frozen.attach clock bitRate).run.Obeys (Call.attach clock bitRate).Permits
      (fun now outcome => ∀ frozen, outcome = .ok frozen → Acknowledged .frozen now) past := by
  rw [Frozen.attach, Attempt.obeys_bind]
  refine (selectClock_obeys clock bitRate _).imp fun now outcome _ => ?_
  cases outcome with
  | error error => exact fun frozen ended => by simp at ended
  | ok value =>
      rw [Attempt.obeys_bind]
      refine (enterFreeze_obeys _).imp fun later entered acknowledged => ?_
      cases entered with
      | error error => exact fun frozen ended => by simp at ended
      | ok value => exact fun frozen _ => acknowledged rfl

theorem write_obeys {state : Stillness} {offset : Nat} {value : UInt32}
    (known : Acknowledged state past) (quiet : offset ≠ Register.mcr.offset)
    (permitted : call.Permits past (.write offset value)) :
    (writeWord offset value).Obeys call.Permits (fun now _ => Acknowledged state now) past :=
  writeWord_obeys permitted (Stillness.acknowledged_snoc known quiet)

end

section
variable {past : List (Event registers)}

theorem modify_obeys {register : Register} {change : UInt32 → UInt32}
    (frozen : Acknowledged .frozen past) (quiet : register ≠ .mcr)
    (clock : register ≠ .ctrl1 ∨ ∀ word, Ctrl1.clksrc.isSet (change word) = Ctrl1.clksrc.isSet word) :
    (register.modify change).Obeys Call.finalize.Permits (fun now _ => Acknowledged .frozen now)
      past := by
  rw [Register.modify, Program.obeys_bind]
  refine readWord_obeys (Call.permits_read _) fun word => ?_
  have still : Acknowledged .frozen (past ++ [⟨.read register.offset, word⟩]) :=
    Stillness.acknowledged_snoc frozen fun sets => sets
  refine write_obeys still (fun same => quiet (Register.offset_injective same))
    ⟨fun _ => still, fun written same => ?_⟩
  obtain ⟨place, rfl⟩ := Access.write.inj same
  obtain rfl := Register.offset_injective place
  rcases clock with other | keeps
  · exact absurd rfl other
  · exact ⟨past, word, rfl, keeps word⟩

theorem clksrc_withTiming (timing : BitTiming) (prescaler : Nat) (word : UInt32) :
    Ctrl1.clksrc.isSet (Ctrl1.withTiming timing prescaler word) = Ctrl1.clksrc.isSet word := by
  rw [Ctrl1.withTiming, Field.isSet_set_of_disjoint (by decide),
    Field.isSet_set_of_disjoint (by decide), Field.isSet_set_of_disjoint (by decide),
    Field.isSet_set_of_disjoint (by decide), Field.isSet_set_of_disjoint (by decide)]

theorem rates_obeys (rates : Rates) (nominal : BitTiming) (frozen : Acknowledged .frozen past) :
    (rates.program nominal).Obeys Call.finalize.Permits (fun now _ => Acknowledged .frozen now)
      past := by
  cases rates with
  | classic prescaler =>
      rw [Rates.program, Program.obeys_bind]
      refine (modify_obeys frozen (by decide) (.inr (clksrc_withTiming nominal prescaler))).imp
        fun now _ still => ?_
      rw [Program.obeys_bind]
      refine (modify_obeys still (by decide) (.inl (by decide))).imp fun later _ further => ?_
      exact modify_obeys further (by decide) (.inl (by decide))
  | flexible rate prescaler dataPrescaler =>
      rw [Rates.program, Program.obeys_bind]
      refine (modify_obeys frozen (by decide) (.inl (by decide))).imp fun now _ still => ?_
      rw [Program.obeys_bind]
      refine (modify_obeys still (by decide) (.inl (by decide))).imp fun later _ further => ?_
      rw [Program.obeys_bind]
      refine (modify_obeys further (by decide) (.inl (by decide))).imp fun last _ again => ?_
      exact modify_obeys again (by decide) (.inl (by decide))

theorem writeRam_obeys {call : Call} {state : Stillness} {word : Nat} {value : UInt32}
    (known : Acknowledged state past) (bound : word < ramWords) :
    (writeRam word value).Obeys call.Permits (fun now _ => Acknowledged state now) past := by
  refine write_obeys known ?_ (Call.permits_of_plain (Call.plain_ram value bound))
  simp only [ramOffset, Register.offset]
  omega

theorem writeRxMask_obeys {index : Nat} {value : UInt32} (frozen : Acknowledged .frozen past) :
    (writeRxMask index value).Obeys Call.finalize.Permits (fun now _ => Acknowledged .frozen now)
      past := by
  refine write_obeys frozen ?_ ⟨fun _ => frozen, fun written same => ?_⟩
  · simp only [rxMaskOffset, Register.offset]
    omega
  · have place := (Access.write.inj same).1
    simp only [rxMaskOffset, Register.offset] at place
    omega

theorem prepareBuffers_obeys (plan : Plan) (settings : Settings)
    (frozen : Acknowledged .frozen past) :
    (plan.prepareBuffers settings).Obeys Call.finalize.Permits
      (fun now _ => Acknowledged .frozen now) past := by
  rw [Plan.prepareBuffers, Program.obeys_bind]
  refine (Program.obeys_forEach _ (fun word member now still =>
    writeRam_obeys still (List.mem_range.1 member)) frozen).imp fun now _ still => ?_
  rw [Program.obeys_bind]
  refine (Program.obeys_forEach _ (fun index _ later known => writeRxMask_obeys known) still).imp
    fun later _ further => ?_
  rw [Program.obeys_bind]
  have mask : Call.finalize.Permits later (.write Register.rxMgMask.offset 0x1FFFFFFF) := by
    refine ⟨fun _ => further, fun written same => ?_⟩
    exact absurd (Access.write.inj same).1 (by decide)
  refine (write_obeys further (by decide) mask).imp fun last _ known => ?_
  have room := plan.receiveBuffer.controlWord_add_bufferWords_le
  simp only [DataSize.bufferWords] at room
  rw [Buffer.arm, Program.obeys_bind]
  refine (writeRam_obeys known ?_).imp fun final _ armed => writeRam_obeys armed ?_
  · rw [Buffer.identWord]
    omega
  · omega

theorem configure_obeys (plan : Plan) (settings : Settings) (frozen : Acknowledged .frozen past) :
    (plan.configure settings).Obeys Call.finalize.Permits (fun _ _ => True) past := by
  rw [Plan.configure, Program.obeys_bind]
  refine (rates_obeys plan.rates settings.nominal frozen).imp fun now _ still => ?_
  rw [Program.obeys_bind]
  refine (modify_obeys still (by decide) (.inr fun word =>
    Field.isSet_put_of_disjoint (by decide) _ word)).imp fun later _ further => ?_
  rw [Program.obeys_bind]
  exact (prepareBuffers_obeys plan settings further).imp fun last _ _ =>
    modifyMcr_obeys fun _ _ => trivial

theorem start_obeys (frozen : Frozen) (halted : Acknowledged .frozen past) :
    frozen.start.Obeys Call.finalize.Permits (fun _ _ => True) past := by
  unfold Frozen.start
  split
  · trivial
  · trivial
  next plan _ =>
    rw [Program.obeys_bind, Plan.apply, Attempt.obeys_lift]
    refine (configure_obeys plan frozen.settings halted).imp fun now _ _ => ?_
    rw [Attempt.obeys_bind]
    refine (leaveFreeze_obeys _).imp fun later outcome _ => ?_
    cases outcome <;> trivial

end

/-! A running controller is never asked to change a setting. -/

namespace Request

variable {call : Call} {past : List (Event registers)}

theorem readCode_obeys (buffer : Buffer) :
    buffer.readCode.Obeys call.Permits (fun _ _ => True) past := by
  rw [Buffer.readCode, Program.obeys_bind]
  exact readWord_obeys (Call.permits_read _) fun _ => trivial

theorem store_obeys (buffer : Buffer) (message : Message) (code : BufferCode) :
    (buffer.store message code).Obeys call.Permits (fun _ _ => True) past := by
  have room := buffer.controlWord_add_bufferWords_le
  simp only [DataSize.bufferWords] at room
  rw [Buffer.store, Program.obeys_bind]
  refine (Program.obeys_forEach (fun _ => True) (fun number member now _ => ?_)
    trivial).imp fun now _ _ => ?_
  · have within : number < buffer.size.payloadWords :=
      Nat.lt_of_lt_of_le (List.mem_range.1 member) (Nat.min_le_right _ _)
    exact writeWord_obeys
      (Call.permits_of_plain (Call.plain_ram _ (buffer.payloadWord_lt within))) trivial
  · rw [Program.obeys_bind]
    refine writeWord_obeys (Call.permits_of_plain (Call.plain_ram _ ?_)) ?_
    · rw [Buffer.identWord]
      omega
    refine writeWord_obeys (Call.permits_of_plain (Call.plain_ram _ ?_)) trivial
    omega

theorem fetch_obeys (buffer : Buffer) (limit : Nat) :
    (buffer.fetch limit).Obeys call.Permits (fun _ _ => True) past := by
  have awaited : (buffer.awaitControl limit).Obeys call.Permits (fun _ _ => True) past := by
    induction limit generalizing past with
    | zero => trivial
    | succ limit ih =>
        rw [Buffer.awaitControl, Program.obeys_bind]
        refine readWord_obeys (Call.permits_read _) fun control => ?_
        by_cases busy : (BufferCode.ofBits (MbCs.code.get control)).isBusy = true
        · rw [if_pos busy]
          exact ih
        · rw [if_neg busy]
          trivial
  rw [Buffer.fetch, Program.obeys_bind]
  refine awaited.imp fun now found _ => ?_
  cases found with
  | none => trivial
  | some control =>
      rw [Program.obeys_bind]
      refine readWord_obeys (Call.permits_read _) fun ident => ?_
      rw [Program.obeys_bind]
      refine (Program.obeys_collect fun number _ later => ?_).imp fun _ _ _ => trivial
      exact readWord_obeys (Call.permits_read _) fun _ => trivial

theorem transmit_obeys (running : Running) (message : Message) :
    (running.transmit message).Obeys call.Permits (fun _ _ => True) past := by
  unfold Running.transmit
  split
  · trivial
  · rw [Program.obeys_bind]
    refine (readCode_obeys running.transmitBuffer).imp fun now code _ => ?_
    split
    · rw [Program.obeys_bind, Running.enqueue, Program.obeys_bind]
      refine writeWord_obeys (Call.permits_of_plain (Call.plain_register _ (by decide))) ?_
      exact (store_obeys running.transmitBuffer message .txData).imp fun _ _ _ => trivial
    · trivial

theorem receive_obeys (running : Running) :
    running.receive.Obeys call.Permits (fun _ _ => True) past := by
  rw [Running.receive, Program.obeys_bind]
  refine readWord_obeys (Call.permits_read _) fun flags => ?_
  split
  · rw [Program.obeys_bind]
    refine (fetch_obeys running.receiveBuffer _).imp fun now found _ => ?_
    cases found with
    | none => trivial
    | some message =>
        rw [Program.obeys_bind]
        refine readWord_obeys (Call.permits_read _) fun _ => ?_
        rw [Program.obeys_bind]
        exact writeWord_obeys (Call.permits_of_plain (Call.plain_register _ (by decide))) trivial
  · trivial

theorem program_obeys (running : Running) (request : Request) :
    (request.program running).Obeys call.Permits (fun _ _ => True) past := by
  cases request with
  | transmit message =>
      exact Program.obeys_bind.2 ((transmit_obeys running message).imp fun _ _ _ => trivial)
  | send id payload =>
      refine Program.obeys_bind.2 ?_
      show Program.Obeys _ _ (running.transmitDraft _) _
      unfold Running.transmitDraft
      split
      · trivial
      · exact (transmit_obeys running _).imp fun _ _ _ => trivial
  | receive => exact Program.obeys_bind.2 ((receive_obeys running).imp fun _ _ _ => trivial)
  | protocolStatus => exact ⟨Call.permits_read _, fun _ => trivial⟩
  | errorCounters => exact ⟨Call.permits_read _, fun _ => trivial⟩
  | timeStamp => exact ⟨Call.permits_read _, fun _ => trivial⟩

end Request

namespace Call

def Halted (past : List (Event registers)) (seat : Seat) : Prop :=
  ∀ frozen, seat = .frozen frozen → Acknowledged .frozen past

theorem program_obeys {call : Call} {seat : Seat} {program : Program registers Seat}
    {past : List (Event registers)} (called : call.program seat = some program)
    (halted : Halted past seat) : program.Obeys call.Permits Halted past := by
  cases call with
  | attach clock bitRate =>
      obtain rfl := Option.some.inj called
      rw [Program.obeys_bind]
      refine (attach_obeys clock bitRate).imp fun now outcome acknowledged => ?_
      cases outcome with
      | error error =>
          intro frozen same
          cases same
      | ok frozen => exact fun _ _ => acknowledged frozen rfl
  | adjust settings =>
      cases seat with
      | gone => simp [Call.program] at called
      | running running => simp [Call.program] at called
      | frozen frozen =>
          obtain rfl := Option.some.inj called
          exact fun _ _ => halted frozen rfl
  | finalize =>
      cases seat with
      | gone => simp [Call.program] at called
      | running running => simp [Call.program] at called
      | frozen frozen =>
          obtain rfl := Option.some.inj called
          rw [Program.obeys_bind]
          refine (start_obeys frozen (halted frozen rfl)).imp fun now outcome _ => ?_
          rcases outcome with fault | error | running
          all_goals
            intro after same
            cases same
  | configure =>
      cases seat with
      | gone => simp [Call.program] at called
      | frozen frozen => simp [Call.program] at called
      | running running =>
          obtain rfl := Option.some.inj called
          rw [Program.obeys_bind, Running.freeze, Attempt.obeys_bind]
          refine (enterFreeze_obeys _).imp fun now outcome acknowledged => ?_
          cases outcome with
          | error error =>
              intro frozen same
              cases same
          | ok value => exact fun _ _ => acknowledged rfl
  | use request =>
      cases seat with
      | gone => simp [Call.program] at called
      | frozen frozen => simp [Call.program] at called
      | running running =>
          obtain rfl := Option.some.inj called
          rw [Program.obeys_bind]
          refine (request.program_obeys running).imp fun now _ _ => ?_
          intro frozen same
          cases same

end Call

/-- Whatever a controller replies and in whatever order its software makes its calls: a setting is
written only after a mode in which the controller holds still was asked for and acknowledged, with no
other mode asked for since. The clock is selected in a disabled controller, and all that is written to
a frozen one leaves the selection as it was just read. -/
theorem Chronicle.settings_cleared {entries : List Entry} {seat : Seat} (chronicle : Chronicle entries seat)
    {earlier later : List Entry} {call : Call} {before after : List (Event registers)}
    {event : Event registers}
    (split : entries = earlier ++ ⟨call, before ++ event :: after⟩ :: later) :
    call.Permits (accesses earlier ++ before) event.call :=
  (chronicle.obeys Call.Halted nofun Call.program_obeys).2
    earlier call before event after later split

/-! A controller out of reset is taken over and started. -/

namespace Startup

def frozen : Frozen := ⟨.oscillator, .ofBitRate 500000⟩

def takeOver : Program registers Seat := do
  let outcome ← (Frozen.attach frozen.clock 500000).run
  return Call.seated (outcome.map .frozen)

def start : Program registers Seat := do
  match ← frozen.start with
  | .error _ => return .gone
  | .ok outcome => return Call.seated (outcome.map .running)

def device : Handler registers (Station × List Transfer) := Station.device 0

def taken : Station × List Transfer := (takeOver.run device (.reset, [])).2

def first : Entry := ⟨.attach frozen.clock 500000, takeOver.trace device (.reset, [])⟩

theorem run_takeOver : (takeOver.run device (.reset, [])).1 = .frozen frozen := by
  rw [takeOver, Program.run_bind, device, run_attach 0 .reset [] frozen.clock 500000 rfl]
  rfl

theorem chronicle :
    Chronicle [first, ⟨.finalize, start.trace device taken⟩] (start.run device taken).1 := by
  have seated : Chronicle [first] (.frozen frozen) :=
    .entry .nil rfl (run_takeOver ▸ takeOver.runs_trace device (.reset, []))
  exact .entry seated rfl (start.runs_trace device taken)

theorem permits_mask : ∃ before event after, start.trace device taken = before ++ event :: after ∧
    event.call = .write Register.rxMgMask.offset 0x1FFFFFFF ∧
      Call.finalize.Permits (accesses [first] ++ before) event.call := by
  have opened : Access.write Register.rxMgMask.offset 0x1FFFFFFF ∈
      (start.trace device taken).map Event.call := by decide +kernel
  obtain ⟨event, member, call⟩ := List.mem_map.1 opened
  obtain ⟨before, after, split⟩ := List.append_of_mem member
  refine ⟨before, event, after, split, call, ?_⟩
  have whole : [first, ⟨.finalize, start.trace device taken⟩] =
      [first] ++ ⟨.finalize, before ++ event :: after⟩ :: [] := by rw [split]; rfl
  exact chronicle.settings_cleared whole

end Startup

end BufferedCan
