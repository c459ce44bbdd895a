import Impresspress.Encoding.Utf8

/-!
# Texts read as their bytes arrive

The bytes of a text arrive in pieces that may end within a character. Such an end is held back until
the rest arrives; a piece of bytes that begins no character is replaced as soon as this is known.

## Main definitions

* `Utf8.fromUtf8`, `Utf8.errorLen`: the text up to the first bytes that are none, and what is wrong
  there.
* `Utf8.decode`: the text of some bytes and the end that is held back.

## Main results

* `Utf8.decode_append`: it does not matter how the bytes are cut.
* `Utf8.length_held_le`: at most three bytes are held back.
-/

namespace Utf8

open Percent (utf8)

/-- The bytes begin a character, and the next ones are not there yet. -/
def incomplete : List UInt8 → Bool
  | [b] => 0xC2 ≤ b && b ≤ 0xF4
  | [b, b₂] => beginsThree b b₂ || beginsFour b b₂
  | [b, b₂, b₃] => beginsFour b b₂ && isContinuation b₃
  | _ => false

/-- The text up to the first bytes that are no character, and what follows. -/
def fromUtf8 (bytes : List UInt8) : List Char × List UInt8 :=
  match bytes with
  | [] => ([], [])
  | b :: rest =>
    match firstChar? (b :: rest) with
    | some c =>
      let read := fromUtf8 ((b :: rest).drop c.utf8Size)
      (c :: read.1, read.2)
    | none => ([], b :: rest)
termination_by bytes.length
decreasing_by
  have := c.utf8Size_pos
  simp only [List.length_drop, List.length_cons]
  omega

/-- How many bytes are no character, if that is known. -/
def errorLen (error : List UInt8) : Option ℕ :=
  if incomplete error then none else some (brokenLength error)

/-- What has been read: the text, whether something was replaced in it, and what is held back. -/
structure Decoded where
  text : List Char
  invalid : Bool
  held : List UInt8

def Decoded.append (d d' : Decoded) : Decoded := ⟨d.text ++ d'.text, d.invalid || d'.invalid, d'.held⟩

def decode (bytes : List UInt8) : Decoded :=
  match bytes with
  | [] => ⟨[], false, []⟩
  | b :: rest =>
    match firstChar? (b :: rest) with
    | some c => Decoded.append ⟨[c], false, []⟩ (decode ((b :: rest).drop c.utf8Size))
    | none =>
      if incomplete (b :: rest) then ⟨[], false, b :: rest⟩
      else Decoded.append ⟨['\uFFFD'], true, []⟩
        (decode ((b :: rest).drop (brokenLength (b :: rest))))
termination_by bytes.length
decreasing_by
  · have := c.utf8Size_pos
    simp only [List.length_drop, List.length_cons]
    omega
  · have := brokenLength_pos (b :: rest)
    simp only [List.length_drop, List.length_cons]
    omega

variable {bytes rest : List UInt8} {c : Char} {n : ℕ}

/-! ## The first character -/

theorem exists_of_firstChar? (h : firstChar? bytes = some c) :
    ∃ rest, bytes = String.utf8EncodeChar c ++ rest := by
  obtain ⟨l, hl⟩ := ByteArray.exists_of_utf8DecodeChar?_eq_some h
  refine ⟨l.data.toList, ?_⟩
  have hlist := congrArg (fun bytes : ByteArray => bytes.data.toList) hl
  simpa using hlist

theorem firstChar?_append_of_some (h : firstChar? bytes = some c) (rest : List UInt8) :
    firstChar? (bytes ++ rest) = some c := by
  obtain ⟨rest', rfl⟩ := exists_of_firstChar? h
  rw [List.append_assoc]
  exact firstChar?_append c _

/-- The bytes of a character, by how many they are. -/
theorem utf8EncodeChar_cases (c : Char) : (∃ b, String.utf8EncodeChar c = [b]) ∨
    (∃ b b₂, String.utf8EncodeChar c = [b, b₂] ∧ incomplete [b] = true) ∨
    (∃ b b₂ b₃, String.utf8EncodeChar c = [b, b₂, b₃] ∧ incomplete [b] = true ∧
      beginsThree b b₂ = true) ∨
    ∃ b b₂ b₃ b₄, String.utf8EncodeChar c = [b, b₂, b₃, b₄] ∧ incomplete [b] = true ∧
      beginsFour b b₂ = true ∧ isContinuation b₃ = true := by
  have hmax : c.val.toNat < 0xD800 ∨ 0xDFFF < c.val.toNat ∧ c.val.toNat < 0x110000 := c.valid
  simp only [String.utf8EncodeChar]
  split_ifs with h1 h2 h3
  · exact .inl ⟨_, rfl⟩
  · refine .inr (.inl ⟨_, _, rfl, ?_⟩)
    simp only [incomplete, Bool.and_eq_true, decide_eq_true_eq, UInt8.le_iff_toNat_le,
      UInt8.toNat_ofNat', UInt8.reduceToNat]
    omega
  · refine .inr (.inr (.inl ⟨_, _, _, rfl, ?_, ?_⟩))
    · simp only [incomplete, Bool.and_eq_true, decide_eq_true_eq, UInt8.le_iff_toNat_le,
        UInt8.toNat_ofNat', UInt8.reduceToNat]
      omega
    · simp only [beginsThree, isContinuation, Bool.or_eq_true, Bool.and_eq_true, decide_eq_true_eq,
        beq_iff_eq, UInt8.le_iff_toNat_le, ← UInt8.toNat_inj, UInt8.toNat_ofNat',
        UInt8.reduceToNat]
      omega
  · refine .inr (.inr (.inr ⟨_, _, _, _, rfl, ?_, ?_, ?_⟩))
    · simp only [incomplete, Bool.and_eq_true, decide_eq_true_eq, UInt8.le_iff_toNat_le,
        UInt8.toNat_ofNat', UInt8.reduceToNat]
      omega
    · simp only [beginsFour, isContinuation, Bool.or_eq_true, Bool.and_eq_true, decide_eq_true_eq,
        beq_iff_eq, UInt8.le_iff_toNat_le, ← UInt8.toNat_inj, UInt8.toNat_ofNat',
        UInt8.reduceToNat]
      omega
    · simp only [isContinuation, Bool.and_eq_true, decide_eq_true_eq, UInt8.le_iff_toNat_le,
        UInt8.toNat_ofNat', UInt8.reduceToNat]
      omega

/-- The bytes of a character, cut off before its last one, are incomplete. -/
theorem incomplete_of_rest (hbytes : bytes ≠ []) (hrest : rest ≠ [])
    (h : String.utf8EncodeChar c = bytes ++ rest) : incomplete bytes = true := by
  have hrest := List.length_pos_of_ne_nil hrest
  have hlength := congrArg List.length h
  rw [List.length_append] at hlength
  obtain ⟨b, bytes, rfl⟩ := List.exists_cons_of_ne_nil hbytes
  rw [List.cons_append] at h
  rcases utf8EncodeChar_cases c with ⟨a, henc⟩ | ⟨a, a₂, henc, h1⟩ | ⟨a, a₂, a₃, henc, h1, h2⟩ |
    ⟨a, a₂, a₃, a₄, henc, h1, h2, h3⟩ <;>
    rw [henc, List.cons.injEq] at h <;> obtain ⟨rfl, htail⟩ := h <;>
    rw [henc] at hlength <;> simp only [List.length_cons, List.length_nil] at hlength
  · omega
  · match bytes with
    | [] => exact h1
    | b₂ :: bytes =>
      rw [List.length_cons] at hlength
      omega
  · match bytes with
    | [] => exact h1
    | [b₂] =>
      obtain ⟨rfl, -⟩ := List.cons.inj htail
      rw [incomplete, h2, Bool.true_or]
    | b₂ :: b₃ :: bytes =>
      rw [List.length_cons, List.length_cons] at hlength
      omega
  · match bytes with
    | [] => exact h1
    | [b₂] =>
      obtain ⟨rfl, -⟩ := List.cons.inj htail
      rw [incomplete, h2, Bool.or_true]
    | [b₂, b₃] =>
      obtain ⟨rfl, htail'⟩ := List.cons.inj htail
      obtain ⟨rfl, -⟩ := List.cons.inj htail'
      rw [incomplete, h2, h3, Bool.true_and]
    | b₂ :: b₃ :: b₄ :: bytes =>
      rw [List.length_cons, List.length_cons, List.length_cons] at hlength
      omega

/-- What begins no character and is not incomplete begins none, whatever follows. -/
theorem firstChar?_append_of_none (hbytes : bytes ≠ []) (hnone : firstChar? bytes = none)
    (hbroken : incomplete bytes = false) (rest : List UInt8) :
    firstChar? (bytes ++ rest) = none := by
  by_contra hsome
  obtain ⟨c, hc⟩ := Option.ne_none_iff_exists'.mp hsome
  obtain ⟨rest', hrest'⟩ := exists_of_firstChar? hc
  rcases List.append_eq_append_iff.mp hrest' with ⟨w, hw, -⟩ | ⟨w, hw, -⟩
  · by_cases hnil : w = []
    · subst hnil
      rw [List.append_nil] at hw
      have hfirst := firstChar?_append c []
      rw [List.append_nil, hw, hnone] at hfirst
      cases hfirst
    · rw [incomplete_of_rest hbytes hnil hw] at hbroken
      cases hbroken
  · rw [hw, firstChar?_append] at hnone
    cases hnone

/-- What cannot begin a character begins none of three or four bytes. -/
theorem begins_of_not_incomplete {b : UInt8} (h : incomplete [b] = false) (b₂ : UInt8) :
    beginsThree b b₂ = false ∧ beginsFour b b₂ = false := by
  have hb : ¬ (0xC2 ≤ b.toNat ∧ b.toNat ≤ 0xF4) := fun hb => by
    have htrue : incomplete [b] = true := by
      simp only [incomplete, Bool.and_eq_true, decide_eq_true_eq, UInt8.le_iff_toNat_le,
        UInt8.reduceToNat]
      exact hb
    rw [h] at htrue
    cases htrue
  constructor <;> by_contra htrue <;>
    rw [Bool.not_eq_false] at htrue <;>
    simp only [beginsThree, beginsFour, isContinuation, Bool.or_eq_true, Bool.and_eq_true,
      decide_eq_true_eq, beq_iff_eq, UInt8.le_iff_toNat_le, ← UInt8.toNat_inj,
      UInt8.reduceToNat] at htrue <;>
    omega

/-- What is known not to be a character is not so for what follows. -/
theorem incomplete_append (hbytes : bytes ≠ []) (hbroken : incomplete bytes = false)
    (rest : List UInt8) :
    incomplete (bytes ++ rest) = false ∧ brokenLength (bytes ++ rest) = brokenLength bytes := by
  match bytes, rest with
  | bytes, [] => rw [List.append_nil]; exact ⟨hbroken, rfl⟩
  | [b], b₂ :: rest =>
    obtain ⟨h2, h3⟩ := begins_of_not_incomplete hbroken b₂
    refine ⟨?_, by simp [brokenLength, h2, h3]⟩
    match rest with
    | [] => simp [incomplete, h2, h3]
    | [b₃] => simp [incomplete, h3]
    | _ :: _ :: _ => rfl
  | [b, b₂], b₃ :: rest =>
    obtain ⟨h2, h3⟩ := Bool.or_eq_false_iff.mp hbroken
    refine ⟨?_, by simp [brokenLength, h2, h3]⟩
    match rest with
    | [] => simp [incomplete, h3]
    | _ :: _ => rfl
  | [b, b₂, b₃], b₄ :: rest => exact ⟨rfl, rfl⟩
  | b :: b₂ :: b₃ :: b₄ :: bytes, rest => exact ⟨rfl, rfl⟩

theorem brokenLength_le (hbytes : bytes ≠ []) : brokenLength bytes ≤ bytes.length := by
  match bytes with
  | [b] => exact Nat.le_refl 1
  | [b, b₂] =>
    simp only [brokenLength, List.head?_nil, Option.any_none, Bool.false_eq_true, ↓reduceIte]
    split_ifs <;> simp
  | b :: b₂ :: b₃ :: bytes =>
    simp only [brokenLength, List.length_cons]
    split_ifs <;> omega

theorem length_le_of_incomplete (h : incomplete bytes = true) : bytes.length ≤ 3 := by
  match bytes with
  | [_] => exact Nat.le_add_left 1 2
  | [_, _] => exact Nat.le_add_left 2 1
  | [_, _, _] => exact Nat.le_refl 3

/-! ## Decoding -/

theorem Decoded.nil_append (held : List UInt8) (d : Decoded) :
    Decoded.append ⟨[], false, held⟩ d = d := by
  rw [append, List.nil_append, Bool.false_or]

theorem Decoded.append_assoc (d d' d'' : Decoded) :
    (d.append d').append d'' = d.append (d'.append d'') := by
  simp [Decoded.append, Bool.or_assoc]

theorem decode_of_some (h : firstChar? bytes = some c) :
    decode bytes = Decoded.append ⟨[c], false, []⟩ (decode (bytes.drop c.utf8Size)) := by
  cases bytes with
  | nil => cases h
  | cons b rest => rw [decode, h]

theorem decode_of_broken (hbytes : bytes ≠ []) (h : firstChar? bytes = none)
    (hbroken : incomplete bytes = false) : decode bytes =
      Decoded.append ⟨['\uFFFD'], true, []⟩ (decode (bytes.drop (brokenLength bytes))) := by
  cases bytes with
  | nil => exact absurd rfl hbytes
  | cons b rest =>
    rw [decode, h]
    exact if_neg (Bool.eq_false_iff.mp hbroken)

theorem decode_of_incomplete (h : firstChar? bytes = none) (hincomplete : incomplete bytes = true) :
    decode bytes = ⟨[], false, bytes⟩ := by
  cases bytes with
  | nil => cases hincomplete
  | cons b rest =>
    rw [decode, h]
    exact if_pos hincomplete

/-- What has been read does not change with what follows, but for the end that is held back. -/
theorem decode_append (bytes rest : List UInt8) :
    decode (bytes ++ rest) = (decode bytes).append (decode ((decode bytes).held ++ rest)) := by
  induction hn : bytes.length using Nat.strongRecOn generalizing bytes with
  | _ n ih =>
    by_cases hbytes : bytes = []
    · subst hbytes
      rw [decode, Decoded.nil_append]
    have hlength := List.length_pos_of_ne_nil hbytes
    cases hfirst : firstChar? bytes with
    | some c =>
      have hsize := c.utf8Size_pos
      have hle : c.utf8Size ≤ bytes.length := by
        obtain ⟨rest', rfl⟩ := exists_of_firstChar? hfirst
        rw [List.length_append, String.length_utf8EncodeChar]
        exact Nat.le_add_right _ _
      have hdrop := ih _ (by rw [List.length_drop]; omega) (bytes.drop c.utf8Size) rfl
      rw [decode_of_some (firstChar?_append_of_some hfirst rest), List.drop_append_of_le_length hle,
        hdrop, decode_of_some hfirst, Decoded.append_assoc]
      rfl
    | none =>
      cases hincomplete : incomplete bytes with
      | true =>
        rw [decode_of_incomplete hfirst hincomplete, Decoded.nil_append]
      | false =>
        obtain ⟨hbroken, hbrokenLength⟩ := incomplete_append hbytes hincomplete rest
        have hne : bytes ++ rest ≠ [] := List.append_ne_nil_of_left_ne_nil hbytes rest
        have hpos := brokenLength_pos bytes
        have hle := brokenLength_le hbytes
        have hdrop := ih _ (by rw [List.length_drop]; omega) (bytes.drop (brokenLength bytes)) rfl
        rw [decode_of_broken hne (firstChar?_append_of_none hbytes hfirst hincomplete rest) hbroken,
          hbrokenLength, List.drop_append_of_le_length hle, hdrop,
          decode_of_broken hbytes hfirst hincomplete, Decoded.append_assoc]
        rfl

/-- At most the bytes of a character without its last one are held back. -/
theorem length_held_le (bytes : List UInt8) : (decode bytes).held.length ≤ 3 := by
  induction bytes using decode.induct with
  | case1 => rw [decode]; exact Nat.zero_le _
  | case2 b rest c hfirst ih => rwa [decode_of_some hfirst]
  | case3 b rest hfirst hincomplete =>
    rw [decode_of_incomplete hfirst hincomplete]
    exact length_le_of_incomplete hincomplete
  | case4 b rest hfirst hincomplete ih =>
    rwa [decode_of_broken (List.cons_ne_nil _ _) hfirst (Bool.not_eq_true _ ▸ hincomplete)]

/-- The bytes of a text are read as it, with nothing held back. -/
theorem decode_utf8 (text : List Char) : decode (utf8 text) = ⟨text, false, []⟩ := by
  induction text with
  | nil => rw [utf8, List.flatMap_nil, decode]
  | cons c text ih =>
    have hdrop : (String.utf8EncodeChar c ++ utf8 text).drop c.utf8Size = utf8 text :=
      List.drop_left' (String.length_utf8EncodeChar c)
    rw [utf8, List.flatMap_cons]
    change decode (String.utf8EncodeChar c ++ utf8 text) = _
    rw [decode_of_some (firstChar?_append c _), hdrop, ih]
    rfl

/-- Reading up to the first bytes that are no character, and on from there. -/
theorem decode_eq (bytes : List UInt8) : decode bytes =
    Decoded.append ⟨(fromUtf8 bytes).1, false, []⟩ (decode (fromUtf8 bytes).2) := by
  induction bytes using fromUtf8.induct with
  | case1 => rw [fromUtf8, decode, Decoded.nil_append]
  | case2 b rest c hfirst ih =>
    rw [decode_of_some hfirst, ih, fromUtf8, hfirst, ← Decoded.append_assoc]
    rfl
  | case3 b rest hfirst =>
    rw [fromUtf8, hfirst, Decoded.nil_append]

theorem length_fromUtf8_le (bytes : List UInt8) : (fromUtf8 bytes).2.length ≤ bytes.length := by
  induction bytes using fromUtf8.induct with
  | case1 => exact Nat.le_of_eq (by rw [fromUtf8])
  | case2 b rest c hfirst ih =>
    rw [fromUtf8, hfirst]
    exact Nat.le_trans ih (List.length_drop ▸ Nat.sub_le _ _)
  | case3 b rest hfirst => exact Nat.le_of_eq (by rw [fromUtf8, hfirst])

theorem errorLen_pos (h : errorLen bytes = some n) : 0 < n := by
  unfold errorLen at h
  split_ifs at h
  exact Option.some.inj h ▸ brokenLength_pos bytes

theorem firstChar?_fromUtf8 (bytes : List UInt8) : firstChar? (fromUtf8 bytes).2 = none := by
  induction bytes using fromUtf8.induct with
  | case1 => rw [fromUtf8]; rfl
  | case2 b rest c hfirst ih => rwa [fromUtf8, hfirst]
  | case3 b rest hfirst => rwa [fromUtf8, hfirst]

end Utf8
