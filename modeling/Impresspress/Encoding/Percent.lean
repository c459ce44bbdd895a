import Mathlib.Data.List.Basic
import Mathlib.Tactic.Common

/-!
# Percent-encoding

Bytes that are not kept are written as a percent sign and two hexadecimal digits. Decoding undoes
that, and passes on a percent sign that no two digits follow. On texts, the bytes are those of their
UTF-8 encoding.

## Main definitions

* `Percent.encode`, `Percent.decode`: on bytes.
* `Percent.encodeText`, `Percent.decodeText`: on texts.

## Main results

* `Percent.decodeText_encodeText`: the round trip.
-/

namespace Percent

/-! ## Bytes -/

/-- A hexadecimal digit, in upper case. -/
def hexDigit (n : ℕ) : UInt8 := if n < 10 then UInt8.ofNat (48 + n) else UInt8.ofNat (55 + n)

/-- The value of a hexadecimal digit, in either case. -/
def hexValue (b : UInt8) : Option ℕ :=
  if 48 ≤ b ∧ b ≤ 57 then some (b.toNat - 48)
  else if 65 ≤ b ∧ b ≤ 70 then some (b.toNat - 55)
  else if 97 ≤ b ∧ b ≤ 102 then some (b.toNat - 87)
  else none

/-- The code of the percent sign. -/
def sign : UInt8 := 37

/-- One byte: kept, or written with a percent sign. -/
def encodeByte (keep : UInt8 → Bool) (b : UInt8) : List UInt8 :=
  if keep b then [b] else [sign, hexDigit (b.toNat / 16), hexDigit (b.toNat % 16)]

def encode (keep : UInt8 → Bool) (bytes : List UInt8) : List UInt8 :=
  bytes.flatMap (encodeByte keep)

def decode : List UInt8 → List UInt8
  | [] => []
  | [b] => [b]
  | [b, c] => [b, c]
  | b :: high :: low :: rest =>
    if b = sign then
      match hexValue high, hexValue low with
      | some h, some l => UInt8.ofNat (16 * h + l) :: decode rest
      | _, _ => b :: decode (high :: low :: rest)
    else b :: decode (high :: low :: rest)

theorem hexValue_hexDigit : ∀ n < 16, hexValue (hexDigit n) = some n := by decide

theorem decode_cons_of_ne {b : UInt8} (hb : b ≠ sign) (rest : List UInt8) :
    decode (b :: rest) = b :: decode rest := by
  match rest with
  | [] => rfl
  | [_] => rfl
  | _ :: _ :: _ => rw [decode, if_neg hb]

/-- The bytes of an encoded byte come back as that byte. -/
theorem decode_encodeByte_append {keep : UInt8 → Bool} (hkeep : keep sign = false) (b : UInt8)
    (rest : List UInt8) : decode (encodeByte keep b ++ rest) = b :: decode rest := by
  unfold encodeByte
  split
  · rename_i hb
    refine decode_cons_of_ne ?_ rest
    rintro rfl
    rw [hkeep] at hb
    cases hb
  · have hlt : b.toNat < 256 := b.toNat_lt
    rw [List.cons_append, List.cons_append, List.cons_append, List.nil_append, decode, if_pos rfl,
      hexValue_hexDigit _ (by omega), hexValue_hexDigit _ (by omega)]
    dsimp only
    rw [Nat.div_add_mod, UInt8.ofNat_toNat]

theorem decode_encode {keep : UInt8 → Bool} (hkeep : keep sign = false) (bytes : List UInt8) :
    decode (encode keep bytes) = bytes := by
  induction bytes with
  | nil => rfl
  | cons b bytes ih => rw [encode, List.flatMap_cons, decode_encodeByte_append hkeep, ← encode, ih]

theorem hexDigit_bound : ∀ n < 16, (hexDigit n).toNat < 128 ∧ hexDigit n ≠ 47 := by decide

/-- What an encoding is made of: bytes that are kept, the percent sign and hexadecimal digits. -/
theorem mem_encode {keep : UInt8 → Bool} {bytes : List UInt8} {b : UInt8}
    (h : b ∈ encode keep bytes) : keep b = true ∨ b = sign ∨ ∃ n < 16, b = hexDigit n := by
  obtain ⟨b', -, hb⟩ := List.mem_flatMap.mp h
  unfold encodeByte at hb
  split at hb
  · rename_i hkept
    rw [List.mem_singleton.mp hb]
    exact .inl hkept
  · have hlt : b'.toNat < 256 := b'.toNat_lt
    rcases List.mem_cons.mp hb with rfl | hb
    · exact .inr (.inl rfl)
    · rcases List.mem_cons.mp hb with rfl | hb
      · exact .inr (.inr ⟨_, by omega, rfl⟩)
      · rw [List.mem_singleton.mp hb]
        exact .inr (.inr ⟨_, Nat.mod_lt _ (by omega), rfl⟩)

theorem encode_ne_nil {keep : UInt8 → Bool} {bytes : List UInt8} (h : bytes ≠ []) :
    encode keep bytes ≠ [] := by
  cases bytes with
  | nil => exact absurd rfl h
  | cons b bytes =>
    rw [encode, List.flatMap_cons, encodeByte]
    split <;> exact List.cons_ne_nil _ _

/-! ## Texts -/

/-- The bytes of a text. -/
def utf8 (text : List Char) : List UInt8 := text.flatMap String.utf8EncodeChar

/-- Bytes below 128, as a text. -/
def ofAscii (bytes : List UInt8) : List Char := bytes.map fun b => Char.ofNat b.toNat

theorem utf8EncodeChar_ofNat {n : ℕ} (h : n < 128) :
    String.utf8EncodeChar (Char.ofNat n) = [UInt8.ofNat n] := by
  have hval : (Char.ofNat n).val.toNat = n := by
    rw [Char.ofNat, dif_pos (.inl (by omega))]
    exact UInt32.toNat_ofNatLT
  rw [String.utf8EncodeChar]
  simp only [hval]
  exact if_pos (by omega)

theorem utf8_ofAscii {bytes : List UInt8} (h : ∀ b ∈ bytes, b.toNat < 128) :
    utf8 (ofAscii bytes) = bytes := by
  induction bytes with
  | nil => rfl
  | cons b bytes ih =>
    have hb := utf8EncodeChar_ofNat (h b List.mem_cons_self)
    rw [UInt8.ofNat_toNat] at hb
    change String.utf8EncodeChar _ ++ utf8 (ofAscii bytes) = b :: bytes
    rw [hb, ih fun b' hb' => h b' (List.mem_cons_of_mem _ hb'), List.singleton_append]

/-- The bytes of a string. -/
def bytesOf (s : String) : List UInt8 := s.toByteArray.data.toList

theorem length_bytesOf (s : String) : (bytesOf s).length = s.utf8ByteSize := rfl

/-- The bytes of a string are read back. -/
theorem fromUTF8_bytesOf (s : String) : String.fromUTF8? ⟨(bytesOf s).toArray⟩ = some s := by
  have hbytes : (⟨(bytesOf s).toArray⟩ : ByteArray) = s.toByteArray := by
    rw [bytesOf, Array.toArray_toList]
  rw [hbytes, String.fromUTF8?, dif_pos s.isValidUTF8]
  rfl

/-- Percent-encode a string; what is kept are codes below 128. -/
def encodeText (keep : UInt8 → Bool) (s : String) : List Char := ofAscii (encode keep (bytesOf s))

/-- Percent-decode a text; one that does not decode to UTF-8 is left as it is. -/
def decodeText (text : List Char) : String :=
  (String.fromUTF8? ⟨(decode (utf8 text)).toArray⟩).getD (String.ofList text)

variable {keep : UInt8 → Bool}

theorem encode_ascii (hascii : ∀ b, keep b = true → b.toNat < 128) (bytes : List UInt8) :
    ∀ b ∈ encode keep bytes, b.toNat < 128 := by
  intro b hb
  rcases mem_encode hb with hkept | rfl | ⟨n, hn, rfl⟩
  · exact hascii b hkept
  · decide
  · exact (hexDigit_bound n hn).1

theorem decodeText_encodeText (hsign : keep sign = false)
    (hascii : ∀ b, keep b = true → b.toNat < 128) (s : String) :
    decodeText (encodeText keep s) = s := by
  rw [decodeText, encodeText, utf8_ofAscii (encode_ascii hascii _), decode_encode hsign,
    fromUTF8_bytesOf, Option.getD_some]

/-- A separator that is not kept does not stand in what was encoded. -/
theorem slash_notMem_encodeText (hslash : keep 47 = false)
    (hascii : ∀ b, keep b = true → b.toNat < 128) (s : String) : '/' ∉ encodeText keep s := by
  intro h
  obtain ⟨b, hb, hchar⟩ := List.mem_map.mp h
  have hlt := encode_ascii hascii _ b hb
  have hval : (Char.ofNat b.toNat).toNat = b.toNat := by
    rw [Char.ofNat, dif_pos (.inl (by omega))]
    exact UInt32.toNat_ofNatLT
  rw [hchar] at hval
  have h47 : b = 47 := by
    rw [← UInt8.toNat_inj, ← hval]
    decide
  rcases mem_encode hb with hkept | hsign | ⟨n, hn, hdigit⟩
  · rw [h47, hslash] at hkept
    cases hkept
  · rw [h47] at hsign
    exact absurd hsign (by decide)
  · exact (hexDigit_bound n hn).2 (hdigit ▸ h47)

theorem encodeText_ne_nil {s : String} (hs : s ≠ "") : encodeText keep s ≠ [] := by
  have hbytes : bytesOf s ≠ [] := by
    intro hnil
    refine hs ?_
    rw [← String.toByteArray_inj, String.toByteArray_empty]
    exact ByteArray.ext (Array.toList_eq_nil_iff.mp hnil)
  exact fun h => encode_ne_nil hbytes (List.map_eq_nil_iff.mp h)

end Percent
