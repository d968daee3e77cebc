import BufferedCan.Register

/-!
Frame identifiers: 11 bits in the standard format, 29 bits in the extended format, and how they lie
in the identifier word of a message buffer.
-/

namespace BufferedCan

inductive Identifier
  | standard (value : BitVec 11)
  | extended (value : BitVec 29)
  deriving DecidableEq, Repr

namespace Identifier

def isExtended : Identifier → Bool
  | standard _ => false
  | extended _ => true

def toNat : Identifier → Nat
  | standard value => value.toNat
  | extended value => value.toNat

def standard? (value : Nat) : Option (BitVec 11) :=
  if value < MbId.stdId.size then some (BitVec.ofNat 11 value) else none

def ofNat? (extended : Bool) (value : Nat) : Option Identifier :=
  if extended then
    if value < MbId.extId.size then some (.extended (BitVec.ofNat 29 value)) else none
  else (standard? value).map .standard

def toWord : Identifier → UInt32
  | standard value => MbId.stdId.set value.toNat 0
  | extended value => MbId.extId.set value.toNat 0

def ofWord (extended : Bool) (word : UInt32) : Identifier :=
  if extended then .extended (BitVec.ofNat 29 (MbId.extId.get word))
  else .standard (BitVec.ofNat 11 (MbId.stdId.get word))

theorem ofWord_toWord (id : Identifier) : ofWord id.isExtended id.toWord = id := by
  cases id with
  | standard value =>
      have small : value.toNat % MbId.stdId.size = value.toNat :=
        Nat.mod_eq_of_lt value.isLt
      simp only [ofWord, isExtended, toWord, Field.get_set, small, BitVec.ofNat_toNat]
      simp
  | extended value =>
      have small : value.toNat % MbId.extId.size = value.toNat :=
        Nat.mod_eq_of_lt value.isLt
      simp only [ofWord, isExtended, toWord, Field.get_set, small, BitVec.ofNat_toNat]
      simp

end Identifier

end BufferedCan
