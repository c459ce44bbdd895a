import Impresspress.Encoding.Percent

/-!
# Texts read from bytes that may be broken

Bytes are read as UTF-8. Where they are not the bytes of a character, a replacement character stands
for as many of them as could have begun one.

## Main definitions

* `Utf8.fromUtf8Lossy`: the text of some bytes.

## Main results

* `Utf8.fromUtf8Lossy_utf8`: the bytes of a text are read back.
* `Utf8.mem_of_mem_utf8`: an ASCII byte of a text is one of its characters.
-/

namespace Utf8

open Percent (utf8)

/-- The character whose bytes stand first. -/
def firstChar? (bytes : List UInt8) : Option Char := ByteArray.utf8DecodeChar? bytes.toByteArray 0

def isContinuation (b : UInt8) : Bool := 0x80 ≤ b && b ≤ 0xBF

/-- The two bytes can begin a character of three bytes or of four. -/
def beginsThree (b b₂ : UInt8) : Bool :=
  (b == 0xE0 && 0xA0 ≤ b₂ && b₂ ≤ 0xBF) || (0xE1 ≤ b && b ≤ 0xEC && isContinuation b₂) ||
    (b == 0xED && 0x80 ≤ b₂ && b₂ ≤ 0x9F) || (0xEE ≤ b && b ≤ 0xEF && isContinuation b₂)

def beginsFour (b b₂ : UInt8) : Bool :=
  (b == 0xF0 && 0x90 ≤ b₂ && b₂ ≤ 0xBF) || (0xF1 ≤ b && b ≤ 0xF3 && isContinuation b₂) ||
    (b == 0xF4 && 0x80 ≤ b₂ && b₂ ≤ 0x8F)

/-- How many bytes one replacement character stands for. -/
def brokenLength : List UInt8 → ℕ
  | b :: b₂ :: rest =>
    if beginsThree b b₂ then 2
    else if beginsFour b b₂ then if rest.head?.any isContinuation then 3 else 2
    else 1
  | _ => 1

theorem brokenLength_pos (bytes : List UInt8) : 0 < brokenLength bytes := by
  unfold brokenLength
  split
  · split_ifs <;> decide
  · decide

/-- `String::from_utf8_lossy`, as characters -/
def fromUtf8Lossy (bytes : List UInt8) : List Char :=
  match bytes with
  | [] => []
  | b :: rest =>
    match firstChar? (b :: rest) with
    | some c => c :: fromUtf8Lossy ((b :: rest).drop c.utf8Size)
    | none => '\uFFFD' :: fromUtf8Lossy ((b :: rest).drop (brokenLength (b :: rest)))
termination_by bytes.length
decreasing_by
  · have := c.utf8Size_pos
    simp only [List.length_drop, List.length_cons]
    omega
  · have := brokenLength_pos (b :: rest)
    simp only [List.length_drop, List.length_cons]
    omega

theorem firstChar?_append (c : Char) (rest : List UInt8) :
    firstChar? (String.utf8EncodeChar c ++ rest) = some c := by
  rw [firstChar?, List.toByteArray_append]
  exact ByteArray.utf8DecodeChar?_utf8EncodeChar_append

theorem fromUtf8Lossy_utf8 (text : List Char) : fromUtf8Lossy (utf8 text) = text := by
  induction text with
  | nil => rw [utf8, List.flatMap_nil, fromUtf8Lossy]
  | cons c text ih =>
    have hfirst := firstChar?_append c (utf8 text)
    have hdrop : (String.utf8EncodeChar c ++ utf8 text).drop c.utf8Size = utf8 text :=
      List.drop_left' (String.length_utf8EncodeChar c)
    rw [utf8, List.flatMap_cons]
    change fromUtf8Lossy (String.utf8EncodeChar c ++ utf8 text) = _
    cases hbytes : String.utf8EncodeChar c ++ utf8 text with
    | nil =>
      rw [hbytes] at hfirst
      cases hfirst
    | cons b rest =>
      rw [hbytes] at hfirst hdrop
      rw [fromUtf8Lossy, hfirst]
      dsimp only
      rw [hdrop, ih]

/-- The bytes of a character that is not ASCII are none that are. -/
theorem le_of_mem_utf8EncodeChar {c : Char} {b : UInt8} (hc : 128 ≤ c.toNat)
    (hb : b ∈ String.utf8EncodeChar c) : 128 ≤ b.toNat := by
  have hval : ¬ c.val.toNat ≤ 0x7f := Nat.not_le.mpr hc
  have hmax : c.val.toNat < 0x110000 := by
    rcases c.valid with h | ⟨-, h⟩
    · exact Nat.lt_trans h (by decide)
    · exact h
  simp only [String.utf8EncodeChar, hval, ↓reduceIte] at hb
  split_ifs at hb <;> simp only [List.mem_cons, List.not_mem_nil, or_false] at hb
  · rcases hb with rfl | rfl <;> (rw [UInt8.toNat_ofNat']; omega)
  · rcases hb with rfl | rfl | rfl <;> (rw [UInt8.toNat_ofNat']; omega)
  · rcases hb with rfl | rfl | rfl | rfl <;> (rw [UInt8.toNat_ofNat']; omega)

theorem mem_of_mem_utf8 {text : List Char} {b : UInt8} (hb : b ∈ utf8 text)
    (hascii : b.toNat < 128) : Char.ofNat b.toNat ∈ text := by
  obtain ⟨c, hc, hb⟩ := List.mem_flatMap.mp hb
  have hsmall : c.toNat < 128 := by
    by_contra hbig
    exact absurd (le_of_mem_utf8EncodeChar (Nat.not_lt.mp hbig) hb) (Nat.not_le.mpr hascii)
  have hchar := Percent.utf8EncodeChar_ofNat hsmall
  rw [Char.ofNat_toNat] at hchar
  rw [hchar, List.mem_singleton] at hb
  have hnat : b.toNat = c.toNat := by
    rw [hb, UInt8.toNat_ofNat', Nat.mod_eq_of_lt (Nat.lt_trans hsmall (by decide))]
  rwa [hnat, Char.ofNat_toNat]

end Utf8
