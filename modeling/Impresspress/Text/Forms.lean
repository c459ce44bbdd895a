import Impresspress.Text.Numerals

/-!
# Forms

A form is a list of fields, each a key and a text. A list of entries is written into it by giving
the fields of an entry keys that begin with the name of the list and the index of the entry.

## Main definitions

* `Text.Form`, `Text.indexed`: forms, and the keys of the entries of a list.
* `Text.Form.nest`, `Text.Form.under`: putting a key ahead of the keys of a form, and the fields
  whose keys begin with one.
* `Text.Form.entries`: the entries of a list.
* `Text.readNat`, `Text.readInt`: numbers read from their digits.

## Main results

* `Text.Form.under_entries`: the entries of a list are read back by their index.
* `Text.readNat_toString`, `Text.readInt_toString`: numbers are read back.
-/

namespace Text

/-! ## Numbers -/

def readDigits (digits : List Char) : Option ℕ :=
  if digits ≠ [] ∧ digits.all Char.isDigit then some (digitsValue digits) else none

def readNat (text : String) : Option ℕ := readDigits text.toList

def readInt (text : String) : Option ℤ :=
  match text.toList with
  | '-' :: digits => (readDigits digits).map fun n : ℕ => -(n : ℤ)
  | digits => (readDigits digits).map Int.ofNat

theorem readDigits_toDigits (n : ℕ) : readDigits (Nat.toDigits 10 n) = some n := by
  have hall : (Nat.toDigits 10 n).all Char.isDigit := List.all_eq_true.mpr fun _ h =>
    isDigit_of_mem_toDigits h
  rw [readDigits, if_pos ⟨Nat.toDigits_ne_nil, hall⟩, digitsValue_toDigits]

theorem readNat_toString (n : ℕ) : readNat (toString n) = some n := by
  change readDigits n.repr.toList = _
  rw [Nat.toList_repr, readDigits_toDigits]

theorem readInt_toString (n : ℤ) : readInt (toString n) = some n := by
  cases n with
  | ofNat n =>
    change readInt n.repr = _
    unfold readInt
    rw [Nat.toList_repr]
    split
    · rename_i digits h
      have hminus := isDigit_of_mem_toDigits (h ▸ List.mem_cons_self)
      cases hminus
    · rw [readDigits_toDigits]
      rfl
  | negSucc n =>
    have htext : (toString (Int.negSucc n)).toList = '-' :: Nat.toDigits 10 (n + 1) := by
      change ("-" ++ (n + 1).repr).toList = _
      rw [String.toList_append, Nat.toList_repr]
      rfl
    unfold readInt
    rw [htext]
    change (readDigits (Nat.toDigits 10 (n + 1))).map _ = _
    rw [readDigits_toDigits]
    rfl

/-! ## Keys -/

abbrev Form := List (String × String)

/-- The key of an entry of a list. -/
def indexed (name : String) (index : ℕ) : String := name ++ "[" ++ toString index ++ "]"

theorem toList_indexed (name : String) (index : ℕ) :
    (indexed name index).toList = name.toList ++ '[' :: (Nat.toDigits 10 index ++ [']']) := by
  change (name ++ "[" ++ index.repr ++ "]").toList = _
  simp only [String.toList_append, Nat.toList_repr, List.append_assoc]
  rfl

theorem notMem_toDigits (index : ℕ) : ']' ∉ Nat.toDigits 10 index := fun h => by
  cases isDigit_of_mem_toDigits h

/-- The key of an entry is the beginning of no key in another entry. -/
theorem eq_of_indexed_prefix {name : String} {i j : ℕ} {rest : List Char}
    (h : (indexed name i).toList <+: (indexed name j).toList ++ rest) : i = j := by
  simp only [toList_indexed, List.append_assoc, List.cons_append, List.prefix_append_right_inj,
    List.prefix_cons_inj, List.nil_append] at h
  obtain ⟨behind, h⟩ := h
  rw [List.append_assoc] at h
  have hdigits := congrArg (List.takeWhile (· ≠ ']')) h
  have hstop (index : ℕ) (text : List Char) :
      (Nat.toDigits 10 index ++ ']' :: text).takeWhile (· ≠ ']') = Nat.toDigits 10 index := by
    have hall : ∀ c ∈ Nat.toDigits 10 index, decide (c ≠ ']') = true := fun c hc =>
      decide_eq_true fun heq => notMem_toDigits index (heq ▸ hc)
    rw [List.takeWhile_append_of_pos hall, List.takeWhile_cons_of_neg (by decide), List.append_nil]
  change List.takeWhile _ (_ ++ ']' :: behind) = _ at hdigits
  rw [hstop, hstop] at hdigits
  rw [← digitsValue_toDigits i, hdigits, digitsValue_toDigits]

namespace Form

/-- The fields with a key ahead of theirs. -/
def nest (key : String) (form : Form) : Form := form.map fun field => (key ++ field.1, field.2)

/-- The fields whose keys begin with a key, without it. -/
def under (key : String) (form : Form) : Form :=
  form.filterMap fun field =>
    (field.1.toList.dropPrefix? key.toList).map fun rest => (String.ofList rest, field.2)

/-- The entries of a list, the first of them with an index. -/
def entries (name : String) (index : ℕ) : List Form → Form
  | [] => []
  | entry :: rest => nest (indexed name index) entry ++ entries name (index + 1) rest

variable {key name : String} {form front back : Form} {i j : ℕ}

theorem under_append : under key (front ++ back) = under key front ++ under key back :=
  List.filterMap_append

theorem under_eq_nil (h : ∀ field ∈ form, ¬ key.toList <+: field.1.toList) :
    under key form = [] := by
  refine List.filterMap_eq_nil_iff.mpr fun field hfield => ?_
  rw [Option.map_eq_none_iff, Option.eq_none_iff_forall_ne_some]
  intro rest hrest
  obtain ⟨front, heq, hfront⟩ := List.dropPrefix?_eq_some_iff.mp hrest
  exact h field hfield ⟨rest, by rw [heq, eq_of_beq hfront]⟩

theorem under_nest (key : String) (form : Form) : under key (nest key form) = form := by
  unfold under nest
  rw [List.filterMap_map]
  refine (List.filterMap_congr fun field _ => ?_).trans List.filterMap_some
  have hdrop : (key ++ field.1).toList.dropPrefix? key.toList = some field.1.toList :=
    List.dropPrefix?_eq_some_iff.mpr ⟨key.toList, String.toList_append, beq_self_eq_true _⟩
  simp only [Function.comp_apply, hdrop, Option.map_some, String.ofList_toList]

theorem under_nest_indexed (h : i ≠ j) : under (indexed name i) (nest (indexed name j) form) = [] := by
  refine under_eq_nil fun field hfield hprefix => h ?_
  obtain ⟨inner, -, rfl⟩ := List.mem_map.mp hfield
  rw [String.toList_append] at hprefix
  exact eq_of_indexed_prefix hprefix

theorem under_entries_of_lt {list : List Form} (h : i < j) :
    under (indexed name i) (entries name j list) = [] := by
  induction list generalizing j with
  | nil => rfl
  | cons entry rest ih =>
    rw [entries, under_append, under_nest_indexed h.ne, ih (Nat.lt_succ_of_lt h), List.append_nil]

/-- An entry is read back by its index. -/
theorem under_entries (name : String) (index i : ℕ) (list : List Form) :
    under (indexed name (index + i)) (entries name index list) = list[i]?.getD [] := by
  induction list generalizing index i with
  | nil => rfl
  | cons entry rest ih =>
    rw [entries, under_append]
    cases i with
    | zero =>
      rw [Nat.add_zero, under_nest, under_entries_of_lt index.lt_succ_self, List.append_nil]
      rfl
    | succ i =>
      rw [under_nest_indexed (by omega), List.nil_append, ← Nat.succ_add_eq_add_succ]
      exact ih (index + 1) i

end Form

end Text
