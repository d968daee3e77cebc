/-!
A 32 bit word as four bytes, the most significant byte first, and a list of words as a list of bytes.
-/

namespace BufferedCan.Word

def ofBytes (first second third fourth : UInt8) : UInt32 :=
  UInt32.ofNat
    (first.toNat <<< 24 + second.toNat <<< 16 + third.toNat <<< 8 + fourth.toNat)

def bytes (word : UInt32) : List UInt8 :=
  [UInt8.ofNat (word.toNat >>> 24), UInt8.ofNat (word.toNat >>> 16),
    UInt8.ofNat (word.toNat >>> 8), UInt8.ofNat word.toNat]

theorem length_bytes (word : UInt32) : (bytes word).length = 4 := rfl

theorem toNat_ofBytes (first second third fourth : UInt8) :
    (ofBytes first second third fourth).toNat =
      first.toNat <<< 24 + second.toNat <<< 16 + third.toNat <<< 8 + fourth.toNat := by
  have := first.toNat_lt
  have := second.toNat_lt
  have := third.toNat_lt
  have := fourth.toNat_lt
  rw [ofBytes, UInt32.toNat_ofNat_of_lt']
  simp only [UInt32.size]
  omega

theorem bytes_ofBytes (first second third fourth : UInt8) :
    bytes (ofBytes first second third fourth) = [first, second, third, fourth] := by
  have := first.toNat_lt
  have := second.toNat_lt
  have := third.toNat_lt
  have := fourth.toNat_lt
  simp only [bytes, toNat_ofBytes, List.cons.injEq, ← UInt8.toNat_inj, UInt8.toNat_ofNat', and_true]
  omega

theorem ofBytes_bytes (word : UInt32) :
    ofBytes (UInt8.ofNat (word.toNat >>> 24)) (UInt8.ofNat (word.toNat >>> 16))
      (UInt8.ofNat (word.toNat >>> 8)) (UInt8.ofNat word.toNat) = word := by
  have := word.toNat_lt
  rw [← UInt32.toNat_inj, toNat_ofBytes]
  simp only [UInt8.toNat_ofNat']
  omega

/-- The words that hold the bytes four at a time; up to three bytes at the end that fill no word are
left out. -/
def packAll : List UInt8 → List UInt32
  | first :: second :: third :: fourth :: rest =>
    ofBytes first second third fourth :: packAll rest
  | _ => []

def unpackAll (words : List UInt32) : List UInt8 :=
  words.flatMap bytes

theorem packAll_unpackAll (words : List UInt32) : packAll (unpackAll words) = words := by
  induction words with
  | nil => rfl
  | cons word words ih =>
      simp only [unpackAll, List.flatMap_cons, bytes, List.cons_append, List.nil_append, packAll,
        ofBytes_bytes] at ih ⊢
      rw [ih]

theorem unpackAll_packAll (bytes : List UInt8) (whole : bytes.length % 4 = 0) :
    unpackAll (packAll bytes) = bytes := by
  induction bytes using packAll.induct with
  | case1 first second third fourth rest ih =>
      simp only [List.length_cons] at whole
      simp only [packAll, unpackAll, List.flatMap_cons, bytes_ofBytes, List.cons_append,
        List.nil_append] at ih ⊢
      rw [ih (by omega)]
  | case2 short none =>
      match short, none, whole with
      | [], _, _ => rfl
      | [_], _, whole => simp at whole
      | [_, _], _, whole => simp at whole
      | [_, _, _], _, whole => simp at whole
      | first :: second :: third :: fourth :: rest, none, _ => exact absurd rfl (none _ _ _ _ _)

theorem length_packAll (bytes : List UInt8) : (packAll bytes).length = bytes.length / 4 := by
  induction bytes using packAll.induct with
  | case1 first second third fourth rest ih =>
      simp only [packAll, List.length_cons, ih]
      omega
  | case2 short none =>
      match short, none with
      | [], _ => rfl
      | [_], _ => simp [packAll]
      | [_, _], _ => simp [packAll]
      | [_, _, _], _ => simp [packAll]
      | first :: second :: third :: fourth :: rest, none => exact absurd rfl (none _ _ _ _ _)

theorem length_unpackAll (words : List UInt32) : (unpackAll words).length = 4 * words.length := by
  induction words with
  | nil => rfl
  | cons word words ih =>
      simp only [unpackAll, List.flatMap_cons, List.length_append, length_bytes,
        List.length_cons] at ih ⊢
      omega

end BufferedCan.Word
