import BufferedCan.Register.Format
import Mathlib.Data.List.Nodup
import Mathlib.Data.List.Pairwise

/-! Setting fields of a word by name, one after another. The fields of a format do not get in each
other's way, the two identifiers of a message buffer apart, which lie over each other. -/

namespace BufferedCan

namespace WordFormat

def assignAll? (format : WordFormat) (calls : List (String × Nat)) (word : UInt32) :
    Option UInt32 :=
  calls.foldlM (fun word call => format.assign? call.1 call.2 word) word

def lastValue? (name : String) : List (String × Nat) → Option Nat
  | [] => none
  | call :: later => (lastValue? name later).or (if call.1 = name then some call.2 else none)

/-- The names of two fields that are meant to overlap. -/
def Rivals (first second : String) : Prop :=
  first = "std_id" ∧ second = "ext_id" ∨ first = "ext_id" ∧ second = "std_id"

def Settable (format : WordFormat) (name : String) : Prop :=
  ∃ entry ∈ format.fields, entry.name = name ∧ entry.writable = true

theorem Rivals.symm {first second : String} (rivals : Rivals first second) :
    Rivals second first := by
  rcases rivals with ⟨standard, extended⟩ | ⟨extended, standard⟩
  · exact .inr ⟨extended, standard⟩
  · exact .inl ⟨standard, extended⟩

theorem nodup_names (format : WordFormat) (known : format ∈ all) :
    (format.fields.map NamedField.name).Nodup := by
  simp only [all, List.mem_cons, List.not_mem_nil, or_false] at known
  rcases known with rfl | rfl | rfl | rfl | rfl | rfl | rfl | rfl | rfl | rfl | rfl | rfl | rfl | rfl
  all_goals decide

theorem eq_mbId_of_name {format : WordFormat} (known : format ∈ all) (name : format.name = "MbId") :
    format = mbId := by
  simp only [all, List.mem_cons, List.not_mem_nil, or_false] at known
  rcases known with rfl | rfl | rfl | rfl | rfl | rfl | rfl | rfl | rfl | rfl | rfl | rfl | rfl | rfl
  all_goals first | rfl | exact absurd name (by decide)

theorem pairwise_apart {format : WordFormat} (known : format ∈ all) :
    format.fields.Pairwise fun first second =>
      Rivals first.name second.name ∨ first.field.Disjoint second.field := by
  by_cases name : format.name = "MbId"
  · obtain rfl := eq_mbId_of_name known name
    refine .cons ?_ (.cons ?_ (.cons nofun .nil))
    · intro other member
      right
      rcases List.mem_pair.1 member with rfl | rfl
      · decide
      · decide
    · intro other member
      obtain rfl := List.mem_singleton.1 member
      exact .inl (.inl ⟨rfl, rfl⟩)
  · exact (fields_disjoint format known name).imp fun apart => .inr apart

theorem eq_or_apart {format : WordFormat} (known : format ∈ all) {first second : NamedField}
    (member : first ∈ format.fields) (other : second ∈ format.fields) :
    first = second ∨ Rivals first.name second.name ∨ first.field.Disjoint second.field := by
  by_cases same : first = second
  · exact .inl same
  · right
    have symmetric : Std.Symm fun first second : NamedField =>
        Rivals first.name second.name ∨ first.field.Disjoint second.field := by
      constructor
      intro first second apart
      rcases apart with rivals | disjoint
      · exact .inl rivals.symm
      · exact .inr (Or.symm disjoint)
    exact (pairwise_apart known).forall member other same

/-! One setter. -/

theorem find?_of_mem {format : WordFormat} (known : format ∈ all) {entry : NamedField}
    (member : entry ∈ format.fields) : format.find? entry.name = some entry := by
  have distinct := nodup_names format known
  cases found : format.find? entry.name with
  | none =>
      have differs := List.find?_eq_none.1 found entry member
      simp at differs
  | some other =>
      have named : other.name = entry.name := by simpa using List.find?_some found
      have among : other ∈ format.fields := List.mem_of_find?_eq_some found
      rw [List.inj_on_of_nodup_map distinct among member named]

theorem assign?_of_mem {format : WordFormat} (known : format ∈ all) {entry : NamedField}
    (member : entry ∈ format.fields) (writable : entry.writable = true) (value : Nat)
    (word : UInt32) :
    format.assign? entry.name value word = some (entry.field.set value word) := by
  obtain ⟨name, field, settable⟩ := entry
  obtain rfl : settable = true := writable
  simp only [assign?, find?_of_mem known member]

/-! One setter after another. -/

section
variable {format : WordFormat} {calls : List (String × Nat)}

theorem assignAll?_cons (known : format ∈ all) {entry : NamedField} (member : entry ∈ format.fields)
    (writable : entry.writable = true) (value : Nat) (later : List (String × Nat)) (word : UInt32) :
    format.assignAll? ((entry.name, value) :: later) word =
      format.assignAll? later (entry.field.set value word) := by
  rw [assignAll?, List.foldlM_cons, assign?_of_mem known member writable]
  rfl

theorem exists_assignAll? (known : format ∈ all)
    (settable : ∀ call ∈ calls, format.Settable call.1) (word : UInt32) :
    ∃ after, format.assignAll? calls word = some after := by
  induction calls generalizing word with
  | nil => exact ⟨word, rfl⟩
  | cons call later ih =>
      obtain ⟨name, value⟩ := call
      obtain ⟨entry, member, rfl, writable⟩ := settable _ List.mem_cons_self
      rw [assignAll?_cons known member writable]
      exact ih (fun other among => settable other (List.mem_cons_of_mem _ among)) _

theorem get_assignAll? (known : format ∈ all) (settable : ∀ call ∈ calls, format.Settable call.1)
    {entry : NamedField} (member : entry ∈ format.fields)
    (alone : ∀ name, Rivals entry.name name → lastValue? name calls = none) {word after : UInt32}
    (assigned : format.assignAll? calls word = some after) :
    entry.field.get after =
      (lastValue? entry.name calls).elim (entry.field.get word) (· % entry.field.size) := by
  induction calls generalizing word with
  | nil =>
      obtain rfl := Option.some.inj assigned
      rfl
  | cons call later ih =>
      obtain ⟨name, value⟩ := call
      obtain ⟨other, among, rfl, writable⟩ := settable _ List.mem_cons_self
      rw [assignAll?_cons known among writable] at assigned
      have rest := ih (fun call inside => settable call (List.mem_cons_of_mem _ inside))
        (fun name rivals => (Option.or_eq_none_iff.1 (alone name rivals)).1) assigned
      rw [rest]
      cases given : lastValue? entry.name later with
      | some last => simp [lastValue?, given]
      | none =>
          by_cases same : other = entry
          · subst other
            simp [lastValue?, given, Field.get_set]
          · have unnamed : other.name ≠ entry.name := by
              intro named
              exact same (List.inj_on_of_nodup_map (nodup_names format known) among member named)
            rcases eq_or_apart known member among with equal | rivals | apart
            · exact absurd equal.symm same
            · have unset := (Option.or_eq_none_iff.1 (alone other.name rivals)).2
              simp at unset
            · simp [lastValue?, given, unnamed, Field.get_set_of_disjoint apart]

theorem testBit_assignAll? (known : format ∈ all)
    (settable : ∀ call ∈ calls, format.Settable call.1) {index : Nat}
    (outside : ∀ entry ∈ format.fields, entry.field.covers index = true →
      lastValue? entry.name calls = none)
    {word after : UInt32} (assigned : format.assignAll? calls word = some after) :
    after.toNat.testBit index = word.toNat.testBit index := by
  induction calls generalizing word with
  | nil =>
      obtain rfl := Option.some.inj assigned
      rfl
  | cons call later ih =>
      obtain ⟨name, value⟩ := call
      obtain ⟨entry, member, rfl, writable⟩ := settable _ List.mem_cons_self
      rw [assignAll?_cons known member writable] at assigned
      have uncovered : entry.field.covers index = false := by
        cases covered : entry.field.covers index with
        | false => rfl
        | true =>
            have unset := (Option.or_eq_none_iff.1 (outside entry member covered)).2
            simp at unset
      have rest := ih (fun call inside => settable call (List.mem_cons_of_mem _ inside))
        (fun other among covered => (Option.or_eq_none_iff.1 (outside other among covered)).1)
        assigned
      rw [rest, Field.testBit_set, uncovered]
      rfl

end

/-- Whatever the word was and whatever its fields are set to, in whatever order: a field that was set
reads as the last value, cut to its width, one that was not reads as before, and so does each bit
outside of the fields that were set. Only one of the two identifiers may be set, and then nothing is
said of the other. -/
theorem setters_independent {format : WordFormat} (known : format ∈ all)
    {calls : List (String × Nat)} (settable : ∀ call ∈ calls, format.Settable call.1)
    (single : ∀ first second, Rivals first second →
      lastValue? first calls = none ∨ lastValue? second calls = none)
    (word : UInt32) :
    ∃ after, format.assignAll? calls word = some after ∧
      (∀ entry ∈ format.fields, ∀ value, lastValue? entry.name calls = some value →
        entry.field.get after = value % entry.field.size) ∧
      (∀ entry ∈ format.fields, lastValue? entry.name calls = none →
        (∀ name, Rivals entry.name name → lastValue? name calls = none) →
          entry.field.get after = entry.field.get word) ∧
      ∀ index, (∀ entry ∈ format.fields, entry.field.covers index = true →
          lastValue? entry.name calls = none) →
        after.toNat.testBit index = word.toNat.testBit index := by
  obtain ⟨after, assigned⟩ := exists_assignAll? known settable word
  refine ⟨after, assigned, ?_, ?_, ?_⟩
  · intro entry member value given
    have alone : ∀ name, Rivals entry.name name → lastValue? name calls = none := by
      intro name rivals
      rcases single entry.name name rivals with unset | unset
      · rw [given] at unset
        cases unset
      · exact unset
    rw [get_assignAll? known settable member alone assigned, given]
    rfl
  · intro entry member unset alone
    rw [get_assignAll? known settable member alone assigned, unset]
    rfl
  · intro index outside
    exact testBit_assignAll? known settable outside assigned

def identCalls : List (String × Nat) :=
  [("ext_id", 0xFFFFFFFF), ("prio", 9), ("ext_id", 0x3ABCDEF0)]

theorem setters_independent_extended :
    ∃ after, mbId.assignAll? identCalls 0x12345678 = some after ∧
      MbId.extId.get after = 0x1ABCDEF0 ∧ MbId.prio.get after = 1 := by
  have known : mbId ∈ all := by simp [all]
  have settable : ∀ call ∈ identCalls, mbId.Settable call.1 := by
    have extended : mbId.Settable "ext_id" :=
      ⟨.plain "ext_id" MbId.extId, by simp [mbId], rfl, rfl⟩
    have priority : mbId.Settable "prio" := ⟨.plain "prio" MbId.prio, by simp [mbId], rfl, rfl⟩
    simp [identCalls, extended, priority]
  have single : ∀ first second, Rivals first second →
      lastValue? first identCalls = none ∨ lastValue? second identCalls = none := by
    rintro first second (⟨rfl, rfl⟩ | ⟨rfl, rfl⟩)
    · exact .inl (by decide)
    · exact .inr (by decide)
  obtain ⟨after, assigned, given, -, -⟩ :=
    setters_independent known settable single 0x12345678
  have extended := given (.plain "ext_id" MbId.extId) (by simp [mbId]) 0x3ABCDEF0 (by decide)
  have priority := given (.plain "prio" MbId.prio) (by simp [mbId]) 9 (by decide)
  exact ⟨after, assigned, extended, priority⟩

end WordFormat

end BufferedCan
