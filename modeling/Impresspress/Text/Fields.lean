import Impresspress.Text.Lines

/-!
# Fields of a text

What headers and their parameters are cut into, and what is made of the pieces.

## Main definitions

* `Text.splitOnce`, `Text.splitCrlf`: a text cut at the first of some character, and at line ends.
* `Text.eqIgnoreAsciiCase`, `Text.unquote`: comparing names, and taking quotes off.
* `Text.SameLetter`: characters that differ in case at most.

## Main results

* `Text.splitOnce_append`, `Text.splitCrlf_line`: what is put together is cut apart again.
-/

namespace Text

/-- What stands before and behind the first separator, if there is one. -/
def splitOnce (separator : Char) : List Char → Option (List Char × List Char)
  | [] => none
  | c :: text =>
    if c = separator then some ([], text)
    else (splitOnce separator text).map fun halves => (c :: halves.1, halves.2)

/-- The lines between carriage returns with line feeds. -/
def splitCrlf : List Char → List (List Char)
  | [] => [[]]
  | c :: text =>
    if c = '\r' ∧ text.head? = some '\n' then [] :: splitCrlf text.tail
    else match splitCrlf text with
      | [] => [[c]]
      | line :: lines => (c :: line) :: lines
termination_by text => text.length
decreasing_by
  · simp only [List.length_tail, List.length_cons]
    omega
  · simp only [List.length_cons]
    omega

def eqIgnoreAsciiCase (a b : List Char) : Bool := a.map Char.toLower == b.map Char.toLower

/-- The text between quotes, or the text itself where it does not stand in them. -/
def unquote (text : List Char) : List Char :=
  match text with
  | '"' :: rest => if rest.getLast? = some '"' then rest.dropLast else text
  | _ => text

attribute [local simp] splitOnce splitCrlf unquote

variable {text front back : List Char} {separator : Char}

theorem splitOnce_of_notMem (h : separator ∉ text) : splitOnce separator text = none := by
  induction text with
  | nil => rfl
  | cons c text ih =>
    obtain ⟨hc, htext⟩ := List.ne_and_not_mem_of_not_mem_cons h
    rw [splitOnce, if_neg hc.symm, ih htext]
    rfl

theorem splitOnce_append (h : separator ∉ front) :
    splitOnce separator (front ++ separator :: back) = some (front, back) := by
  induction front with
  | nil => exact if_pos rfl
  | cons c front ih =>
    obtain ⟨hc, hfront⟩ := List.ne_and_not_mem_of_not_mem_cons h
    rw [List.cons_append, splitOnce, if_neg hc.symm, ih hfront]
    rfl

/-- What holds no separator stands in front of the first piece. -/
theorem splitOn_front {first : List Char} {pieces : List (List Char)} (hfront : separator ∉ front)
    (h : text.splitOn separator = first :: pieces) :
    (front ++ text).splitOn separator = (front ++ first) :: pieces := by
  induction front with
  | nil => exact h
  | cons c front ih =>
    obtain ⟨hc, hfront⟩ := List.ne_and_not_mem_of_not_mem_cons hfront
    rw [List.cons_append, List.splitOn_cons_eq_if_modifyHead, ih hfront,
      if_neg fun heq => hc (beq_iff_eq.mp heq).symm]
    rfl

theorem splitCrlf_ne_nil (text : List Char) : splitCrlf text ≠ [] := by
  cases text with
  | nil => rw [splitCrlf]; exact List.cons_ne_nil _ _
  | cons c text =>
    rw [splitCrlf]
    split_ifs
    · exact List.cons_ne_nil _ _
    · split <;> exact List.cons_ne_nil _ _

/-- A text without carriage returns is one line. -/
theorem splitCrlf_of_notMem (h : '\r' ∉ text) : splitCrlf text = [text] := by
  induction text with
  | nil => rw [splitCrlf]
  | cons c text ih =>
    obtain ⟨hc, htext⟩ := List.ne_and_not_mem_of_not_mem_cons h
    rw [splitCrlf, if_neg fun hboth => hc hboth.1.symm, ih htext]

theorem splitCrlf_line (h : '\r' ∉ front) :
    splitCrlf (front ++ '\r' :: '\n' :: back) = front :: splitCrlf back := by
  induction front with
  | nil =>
    rw [List.nil_append, splitCrlf, if_pos ⟨rfl, rfl⟩]
    rfl
  | cons c front ih =>
    obtain ⟨hc, hfront⟩ := List.ne_and_not_mem_of_not_mem_cons h
    rw [List.cons_append, splitCrlf, if_neg fun hboth => hc hboth.1.symm, ih hfront]

theorem unquote_quoted : unquote ('"' :: (text ++ ['"'])) = text := by
  rw [unquote, if_pos List.getLast?_concat, List.dropLast_concat]

/-- A text that only opens a quote is left as it is. -/
theorem unquote_open (h : '"' ∉ text) : unquote ('"' :: text) = '"' :: text := by
  rw [unquote, if_neg fun hlast => h (List.mem_of_getLast? hlast)]

theorem unquote_of_notMem (h : '"' ∉ text) : unquote text = text := by
  unfold unquote
  split
  · exact absurd List.mem_cons_self h
  · rfl

/-! ## Letters of another case -/

/-- Two characters that differ in case at most. -/
def SameLetter (c d : Char) : Prop :=
  isWhitespace d = isWhitespace c ∧ d.isAlpha = c.isAlpha ∧ d.utf8Size = c.utf8Size ∧
    d.toUpper = c.toUpper

instance (c d : Char) : Decidable (SameLetter c d) := inferInstanceAs (Decidable (_ ∧ _))

theorem SameLetter.refl (c : Char) : SameLetter c c := ⟨rfl, rfl, rfl, rfl⟩

theorem sameLetter_of_range {f : Char → Char} {c : Char} (first : ℕ)
    (hletters : (List.range' first 26).all fun n => SameLetter (Char.ofNat n) (f (Char.ofNat n)))
    (hlow : first ≤ c.toNat) (hhigh : c.toNat < first + 26) : SameLetter c (f c) := by
  have h := List.all_eq_true.mp hletters c.toNat (List.mem_range'_1.mpr ⟨hlow, hhigh⟩)
  rw [Char.ofNat_toNat] at h
  exact of_decide_eq_true h

theorem sameLetter_toLower (c : Char) : SameLetter c c.toLower := by
  by_cases h : c.val ≥ 'A'.val ∧ c.val ≤ 'Z'.val
  · simp only [ge_iff_le, UInt32.le_iff_toNat_le] at h
    exact sameLetter_of_range 65 (by decide) h.1 (Nat.lt_succ_of_le h.2)
  · have hsame : c.toLower = c := dif_neg h
    rw [hsame]
    exact .refl c

theorem sameLetter_toUpper (c : Char) : SameLetter c c.toUpper := by
  by_cases h : c.val ≥ 'a'.val ∧ c.val ≤ 'z'.val
  · simp only [ge_iff_le, UInt32.le_iff_toNat_le] at h
    exact sameLetter_of_range 97 (by decide) h.1 (Nat.lt_succ_of_le h.2)
  · have hsame : c.toUpper = c := dif_neg h
    rw [hsame]
    exact .refl c

theorem trim_map {f : Char → Char} (hf : ∀ c, SameLetter c (f c)) (text : List Char) :
    trim (text.map f) = (trim text).map f := by
  have hwhite : isWhitespace ∘ f = isWhitespace := funext fun c => (hf c).1
  have hstart (text : List Char) : (text.map f).dropWhile isWhitespace =
      (text.dropWhile isWhitespace).map f := by
    rw [List.dropWhile_map, hwhite]
  unfold trim trimEnd trimStart List.rdropWhile
  rw [hstart, ← List.map_reverse, hstart, List.map_reverse]

end Text
