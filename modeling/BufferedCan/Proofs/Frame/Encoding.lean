import BufferedCan.Frame.Draft

/-! Reading back what a draft was encoded to. The code and the time stamp of the control word belong to
the buffer, not to the frame, and change nothing about what the frame says. -/

namespace BufferedCan

namespace Length

theorem ofCode_mono (fd : Bool) {first last : Nat} (order : first ≤ last) (bound : last < 16) :
    ofCode fd first ≤ ofCode fd last := by
  have all : ∀ last < 16, ∀ first ≤ last, ofCode fd first ≤ ofCode fd last := by
    cases fd <;> decide
  exact all last bound first order

/-- The code announces enough, and no smaller one does. -/
structure Smallest (fd : Bool) (needed code : Nat) : Prop where
  bound : code < 16
  enough : needed ≤ ofCode fd code
  first : ∀ earlier < code, ofCode fd earlier < needed

theorem Smallest.next {fd : Bool} {needed code : Nat} (bound : code + 1 < 16)
    (short : ofCode fd code < needed) (enough : needed ≤ ofCode fd (code + 1)) :
    Smallest fd needed (code + 1) := by
  refine ⟨bound, enough, ?_⟩
  intro earlier before
  have below := ofCode_mono fd (Nat.le_of_lt_succ before) (by omega)
  exact Nat.lt_of_le_of_lt below short

theorem smallest_of_le {fd : Bool} {needed : Nat} (few : needed ≤ 8) : Smallest fd needed needed := by
  have own {code : Nat} (small : code ≤ 8) : ofCode fd code = code := if_pos small
  refine ⟨by omega, Nat.le_of_eq (own few).symm, ?_⟩
  intro earlier before
  rwa [own (by omega)]

theorem smallest_of_code? {fd : Bool} {needed code : Nat} (found : code? fd needed = some code) :
    Smallest fd needed code := by
  unfold code? at found
  split at found
  next few =>
    obtain rfl := Option.some.inj found
    exact smallest_of_le few
  next =>
    cases fd with
    | false => cases found
    | true =>
        -- Each range begins where the length that the code before it announces is exceeded.
        simp only [Bool.not_true, Bool.false_eq_true, if_false] at found
        repeat' split at found
        all_goals cases found
        all_goals exact .next (by decide) (Nat.lt_of_not_le ‹_›) ‹_›

theorem code?_lt {fd : Bool} {length code : Nat} (found : code? fd length = some code) :
    code < 16 :=
  (smallest_of_code? found).bound

theorem le_ofCode {fd : Bool} {length code : Nat} (found : code? fd length = some code) :
    length ≤ ofCode fd code :=
  (smallest_of_code? found).enough

theorem ofCode_le (fd : Bool) (code : Nat) : ofCode fd code ≤ 64 := by
  unfold ofCode
  split
  · omega
  · split
    · decide
    · split <;> decide

end Length

namespace Identifier

theorem toWord_lt (id : Identifier) : id.toWord.toNat < 0x20000000 := by
  suffices bound : id.toWord.toNat < 2 ^ 29 from bound
  apply Nat.lt_pow_two_of_testBit
  intro index above
  have outside : MbId.stdId.covers index = false ∧ MbId.extId.covers index = false := by
    constructor <;> simp [Field.covers] <;> omega
  cases id <;> rw [toWord, Field.testBit_set] <;> simp [outside]

theorem toWord_standard (value : BitVec 11) :
    (standard value).toWord = UInt32.ofNat (value.toNat <<< 18) := by
  have small : value.toNat % MbId.stdId.size = value.toNat := Nat.mod_eq_of_lt value.isLt
  rw [toWord, Field.set, small, UInt32.zero_and, UInt32.zero_or]

theorem toWord_injective {first second : Identifier}
    (format : first.isExtended = second.isExtended) (same : first.toWord = second.toWord) :
    first = second := by
  rw [← ofWord_toWord first, ← ofWord_toWord second, format, same]

theorem matches_iff {first second : Identifier} (format : first.isExtended = second.isExtended) :
    (first.toWord ^^^ second.toWord) &&& 0x1FFFFFFF = 0 ↔ first = second := by
  have small : first.toWord.toNat ^^^ second.toWord.toNat < 2 ^ 29 :=
    Nat.xor_lt_two_pow first.toWord_lt second.toWord_lt
  have mask : (0x1FFFFFFF : UInt32).toNat = 2 ^ 29 - 1 := by decide
  have whole : (first.toWord ^^^ second.toWord) &&& 0x1FFFFFFF = first.toWord ^^^ second.toWord := by
    rw [← UInt32.toNat_inj, UInt32.toNat_and, mask, Nat.and_two_pow_sub_one_eq_mod,
      UInt32.toNat_xor, Nat.mod_eq_of_lt small]
  rw [whole, UInt32.xor_eq_zero_iff]
  exact ⟨toWord_injective format, fun same => by rw [same]⟩

end Identifier

namespace Draft

structure Shown (draft : Draft) (lengthCode : Nat) (control : UInt32) : Prop where
  edl : MbCs.edl.isSet control = draft.content.isFd
  brs : MbCs.brs.isSet control = draft.content.switchesRate
  esi : MbCs.esi.isSet control = draft.content.forcesPassive
  ide : MbCs.ide.isSet control = draft.id.isExtended
  rtr : MbCs.rtr.isSet control = draft.content.isRemote
  dlc : MbCs.dlc.get control = lengthCode

theorem shown_control (draft : Draft) {lengthCode : Nat} (small : lengthCode < 16) :
    draft.Shown lengthCode (draft.control lengthCode) := by
  have dlc : MbCs.dlc.get (draft.control lengthCode) = lengthCode := Field.get_set_of_lt small _
  constructor <;> simp (disch := decide) only [control, Field.isSet_set_of_disjoint,
    Field.isSet_put_of_disjoint, Field.isSet_put] at dlc ⊢
  exact dlc

variable {draft : Draft} {lengthCode : Nat} {control : UInt32}

theorem Shown.set_of_disjoint (shown : draft.Shown lengthCode control) {field : Field}
    (apart : ∀ used ∈ [MbCs.edl, MbCs.brs, MbCs.esi, MbCs.ide, MbCs.rtr, MbCs.dlc],
      used.Disjoint field) (value : Nat) : draft.Shown lengthCode (field.set value control) := by
  constructor
  · rw [Field.isSet_set_of_disjoint (apart _ (by simp)), shown.edl]
  · rw [Field.isSet_set_of_disjoint (apart _ (by simp)), shown.brs]
  · rw [Field.isSet_set_of_disjoint (apart _ (by simp)), shown.esi]
  · rw [Field.isSet_set_of_disjoint (apart _ (by simp)), shown.ide]
  · rw [Field.isSet_set_of_disjoint (apart _ (by simp)), shown.rtr]
  · rw [Field.get_set_of_disjoint (apart _ (by simp)), shown.dlc]

theorem Shown.set_code (shown : draft.Shown lengthCode control) (code : Nat) :
    draft.Shown lengthCode (MbCs.code.set code control) :=
  shown.set_of_disjoint (by decide) code

theorem Shown.set_timestamp (shown : draft.Shown lengthCode control) (time : Nat) :
    draft.Shown lengthCode (MbCs.timestamp.set time control) :=
  shown.set_of_disjoint (by decide) time

def message (draft : Draft) (lengthCode : Nat) : Message where
  control := draft.control lengthCode
  ident := draft.id.toWord
  payload := .ofBytes draft.content.bytes
  capacity := Length.maxBytes

theorem encode?_eq (draft : Draft) :
    draft.encode? = (Length.code? draft.content.isFd draft.content.length).map draft.message := rfl

theorem length_message {draft : Draft} {lengthCode : Nat} (small : lengthCode < 16) :
    (draft.message lengthCode).length = Length.ofCode draft.content.isFd lengthCode := by
  have shown := draft.shown_control small
  have fd : (draft.message lengthCode).isFd = draft.content.isFd := shown.edl
  have code : (draft.message lengthCode).lengthCode = lengthCode := shown.dlc
  rw [Message.length, fd, code]

end Draft

end BufferedCan
