import Mathlib.Data.List.DropRight
import Mathlib.Data.List.Infix
import Mathlib.Tactic.Common

/-!
# Lines of a text

A text is a list of characters. It is cut into lines after every line feed; a line's end is the
line feed with the carriage return ahead of it, if there is one. White space is trimmed from the
ends of a text.

## Main definitions

* `Text.isWhitespace`, `Text.trim`: white space and the text without it at its ends.
* `Text.splitInclusive`, `Text.lines`: the lines with and without their ends.
* `Text.unixEnds`: the text with its line ends as line feeds.

## Main results

* `Text.splitInclusive_append`: the lines of two texts, the first of which ends a line.
* `Text.trim_intercalate_lines`: lines joined by line feeds are the text with its line ends as line
  feeds.
* `Text.trim_unixEnds`: it does not matter which is done first.
-/

namespace Text

/-! ## White space -/

/-- The characters with the property `White_Space`. -/
def isWhitespace (c : Char) : Bool :=
  (9 ≤ c.toNat && c.toNat ≤ 13) || c.toNat == 32 || c.toNat == 0x85 || c.toNat == 0xA0 ||
    c.toNat == 0x1680 || (0x2000 ≤ c.toNat && c.toNat ≤ 0x200A) || c.toNat == 0x2028 ||
    c.toNat == 0x2029 || c.toNat == 0x202F || c.toNat == 0x205F || c.toNat == 0x3000

/-- The ends of a line are white space. -/
theorem isWhitespace_newline : ∀ c ∈ ['\n'], isWhitespace c = true := fun c hc => by
  rw [List.mem_singleton.mp hc]
  rfl

theorem isWhitespace_return : ∀ c ∈ ['\r'], isWhitespace c = true := fun c hc => by
  rw [List.mem_singleton.mp hc]
  rfl

def trimStart (text : List Char) : List Char := text.dropWhile isWhitespace

def trimEnd (text : List Char) : List Char := text.rdropWhile isWhitespace

def trim (text : List Char) : List Char := trimEnd (trimStart text)

/-- Neither end is white space. -/
structure Trimmed (text : List Char) : Prop where
  head : ∀ c ∈ text.head?, isWhitespace c = false
  last : ∀ c ∈ text.getLast?, isWhitespace c = false

variable {text front back : List Char}

/-- What is trimmed at the start is white space. -/
theorem exists_trimStart (text : List Char) :
    ∃ blank, (∀ c ∈ blank, isWhitespace c = true) ∧ text = blank ++ trimStart text :=
  ⟨text.takeWhile isWhitespace, fun _ => List.mem_takeWhile_imp,
    List.takeWhile_append_dropWhile.symm⟩

theorem exists_trimEnd (text : List Char) :
    ∃ blank, (∀ c ∈ blank, isWhitespace c = true) ∧ text = trimEnd text ++ blank :=
  ⟨text.rtakeWhile isWhitespace, fun _ => List.mem_rtakeWhile_imp,
    (List.rdropWhile_append_rtakeWhile ..).symm⟩

/-- A text is its trimmed text between white space. -/
theorem exists_trim (text : List Char) : ∃ front back, (∀ c ∈ front, isWhitespace c = true) ∧
    (∀ c ∈ back, isWhitespace c = true) ∧ text = front ++ (trim text ++ back) := by
  obtain ⟨front, hfront, hstart⟩ := exists_trimStart text
  obtain ⟨back, hback, hend⟩ := exists_trimEnd (trimStart text)
  exact ⟨front, back, hfront, hback, hstart.trans (congrArg (front ++ ·) hend)⟩

theorem trimStart_append {c : Char} (hfront : ∀ c ∈ front, isWhitespace c = true)
    (hc : isWhitespace c = false) : trimStart (front ++ c :: text) = c :: text := by
  rw [trimStart, List.dropWhile_append_of_pos hfront, List.dropWhile_cons_of_neg (by simp [hc])]

theorem trimEnd_append (hlast : ∀ c ∈ text.getLast?, isWhitespace c = false)
    (hback : ∀ c ∈ back, isWhitespace c = true) : trimEnd (text ++ back) = text := by
  rw [trimEnd, List.rdropWhile, List.reverse_append,
    List.dropWhile_append_of_pos fun c hc => hback c (List.mem_reverse.mp hc)]
  refine List.rdropWhile_eq_self_iff.mpr fun hne => ?_
  rw [hlast _ (List.getLast?_eq_getLast_of_ne_nil hne)]
  exact Bool.false_ne_true

/-- What stands trimmed between white space is the trimmed text. -/
theorem trim_eq (h : Trimmed text) (hfront : ∀ c ∈ front, isWhitespace c = true)
    (hback : ∀ c ∈ back, isWhitespace c = true) : trim (front ++ (text ++ back)) = text := by
  cases text with
  | nil =>
    have hblank : trimStart (front ++ back) = [] := List.dropWhile_eq_nil_iff.mpr fun c hc =>
      (List.mem_append.mp hc).elim (hfront c) (hback c)
    rw [List.nil_append, trim, hblank]
    rfl
  | cons c text =>
    rw [trim, List.cons_append, trimStart_append hfront (h.head c rfl), ← List.cons_append,
      trimEnd_append h.last hback]

theorem trimmed_trim (text : List Char) : Trimmed (trim text) where
  head c hc := by
    obtain ⟨back, -, hend⟩ := exists_trimEnd (trimStart text)
    have hhead : (trimStart text).head? = some c := by
      rw [hend, List.head?_append, show (trimEnd (trimStart text)).head? = some c from hc,
        Option.some_or]
    have hnot := List.head?_dropWhile_not isWhitespace text
    rw [show (text.dropWhile isWhitespace).head? = some c from hhead] at hnot
    simpa using hnot
  last c hc := by
    obtain ⟨hne, rfl⟩ := List.mem_getLast?_eq_getLast hc
    exact eq_false_of_ne_true (List.rdropWhile_last_not _ _ hne)

/-- White space at the ends does not matter. -/
theorem trim_append (front text back : List Char) (hfront : ∀ c ∈ front, isWhitespace c = true)
    (hback : ∀ c ∈ back, isWhitespace c = true) : trim (front ++ (text ++ back)) = trim text := by
  obtain ⟨front', back', hfront', hback', htext⟩ := exists_trim text
  have hsame : front ++ (text ++ back) = (front ++ front') ++ (trim text ++ (back' ++ back)) := by
    conv_lhs => rw [htext]
    simp only [List.append_assoc]
  rw [hsame]
  exact trim_eq (trimmed_trim text)
    (fun c hc => (List.mem_append.mp hc).elim (hfront c) (hfront' c))
    fun c hc => (List.mem_append.mp hc).elim (hback' c) (hback c)

theorem trim_of_trimmed (h : Trimmed text) : trim text = text := by
  have htrim := trim_eq h (List.forall_mem_nil _) (List.forall_mem_nil _)
  rwa [List.nil_append, List.append_nil] at htrim

/-! ## Lines -/

/-- The lines with their ends. -/
def splitInclusive : List Char → List (List Char)
  | [] => []
  | c :: text =>
    if c = '\n' then ['\n'] :: splitInclusive text
    else match splitInclusive text with
      | [] => [[c]]
      | line :: lines => (c :: line) :: lines

attribute [local simp] splitInclusive

/-- A line without the carriage return at its end. -/
def stripReturn (line : List Char) : List Char :=
  if line.getLast? = some '\r' then line.dropLast else line

/-- A line without its end. -/
def stripEnd (line : List Char) : List Char :=
  if line.getLast? = some '\n' then stripReturn line.dropLast else line

def lines (text : List Char) : List (List Char) := (splitInclusive text).map stripEnd

/-- Lines of which the last may have no end. -/
inductive Lines : List (List Char) → Prop
  | nil : Lines []
  | last (line : List Char) (hne : line ≠ []) (h : '\n' ∉ line) : Lines [line]
  | cons (line : List Char) (h : '\n' ∉ line) {rest : List (List Char)} (hrest : Lines rest) :
      Lines ((line ++ ['\n']) :: rest)

theorem flatten_splitInclusive (text : List Char) : (splitInclusive text).flatten = text := by
  induction text with
  | nil => rfl
  | cons c text ih =>
    rw [splitInclusive]
    split_ifs with hc
    · rw [List.flatten_cons, ih, hc, List.singleton_append]
    · split
      · rename_i hlines
        rw [hlines, List.flatten_nil] at ih
        rw [← ih]
        rfl
      · rename_i line lines hlines
        rw [hlines, List.flatten_cons] at ih
        rw [List.flatten_cons, List.cons_append, ih]

theorem splitInclusive_of_notMem (hne : text ≠ []) (h : '\n' ∉ text) :
    splitInclusive text = [text] := by
  induction text with
  | nil => exact absurd rfl hne
  | cons c text ih =>
    obtain ⟨hc, htext⟩ := List.ne_and_not_mem_of_not_mem_cons h
    rw [splitInclusive, if_neg (Ne.symm hc)]
    cases text with
    | nil => rfl
    | cons c' text => rw [ih (List.cons_ne_nil c' text) htext]

/-- The lines of two texts, the first of which is a line. -/
theorem splitInclusive_line (h : '\n' ∉ front) (text : List Char) :
    splitInclusive (front ++ '\n' :: text) = (front ++ ['\n']) :: splitInclusive text := by
  induction front with
  | nil => rw [List.nil_append, splitInclusive, if_pos rfl, List.nil_append]
  | cons c front ih =>
    obtain ⟨hc, hfront⟩ := List.ne_and_not_mem_of_not_mem_cons h
    rw [List.cons_append, splitInclusive, if_neg (Ne.symm hc), ih hfront, List.cons_append]

theorem splitInclusive_ne_nil (hne : text ≠ []) : splitInclusive text ≠ [] := by
  intro h
  have hflatten := flatten_splitInclusive text
  rw [h, List.flatten_nil] at hflatten
  exact hne hflatten.symm

/-- The lines of two texts, the first of which ends a line. -/
theorem splitInclusive_append (h : ∀ c ∈ front.getLast?, c = '\n') (text : List Char) :
    splitInclusive (front ++ text) = splitInclusive front ++ splitInclusive text := by
  induction front with
  | nil => rfl
  | cons c front ih =>
    rw [List.cons_append, splitInclusive, splitInclusive]
    cases front with
    | nil => rw [if_pos (h c rfl), if_pos (h c rfl), List.nil_append]; rfl
    | cons c' front =>
      rw [ih fun last hlast => h last (by rwa [List.getLast?_cons_cons])]
      split_ifs with hc
      · rfl
      · obtain ⟨line, lines, hlines⟩ :=
          List.exists_cons_of_ne_nil (splitInclusive_ne_nil (List.cons_ne_nil c' front))
        rw [hlines]
        rfl

theorem lines_splitInclusive (text : List Char) : Lines (splitInclusive text) := by
  induction text with
  | nil => exact .nil
  | cons c text ih =>
    rw [splitInclusive]
    split_ifs with hc
    · exact .cons [] (List.not_mem_nil) ih
    · cases hlines : splitInclusive text with
      | nil => exact .last [c] (List.cons_ne_nil c []) fun h => hc (List.mem_singleton.mp h).symm
      | cons line lines =>
        rw [hlines] at ih
        cases ih with
        | last line _ hline =>
          exact .last (c :: line) (List.cons_ne_nil c line)
            (List.not_mem_cons_of_ne_of_not_mem (Ne.symm hc) hline)
        | cons line hline hrest =>
          exact .cons (c :: line) (List.not_mem_cons_of_ne_of_not_mem (Ne.symm hc) hline) hrest

theorem Lines.filter {ls : List (List Char)} (h : Lines ls) (p : List Char → Bool) :
    Lines (ls.filter p) := by
  induction h with
  | nil => exact .nil
  | last line hne hline =>
    rw [List.filter_cons, List.filter_nil]
    split
    · exact .last line hne hline
    · exact .nil
  | cons line hline _ ih =>
    rw [List.filter_cons]
    split
    · exact .cons line hline ih
    · exact ih

/-- Lines are the lines of the text that they make up. -/
theorem Lines.splitInclusive_flatten {ls : List (List Char)} (h : Lines ls) :
    splitInclusive ls.flatten = ls := by
  induction h with
  | nil => rfl
  | last line hne hline => rw [List.flatten_singleton, splitInclusive_of_notMem hne hline]
  | cons line hline _ ih =>
    rw [List.flatten_cons, List.append_assoc, List.singleton_append, splitInclusive_line hline, ih]

/-! ## Line ends -/

/-- The text with its line ends as line feeds. -/
def unixEnds : List Char → List Char
  | [] => []
  | '\r' :: '\n' :: text => '\n' :: unixEnds text
  | c :: text => c :: unixEnds text

attribute [local simp] unixEnds
attribute [elab_as_elim] unixEnds.induct_unfolding

theorem unixEnds_cons {c : Char} (h : c = '\r' → text.head? ≠ some '\n') :
    unixEnds (c :: text) = c :: unixEnds text := by
  rw [unixEnds]
  rintro text' hc rfl
  exact h hc rfl

theorem unixEnds_of_notMem (h : '\n' ∉ text) : unixEnds text = text := by
  induction text with
  | nil => rfl
  | cons c text ih =>
    obtain ⟨-, htext⟩ := List.ne_and_not_mem_of_not_mem_cons h
    rw [unixEnds_cons fun _ hhead => htext (List.mem_of_mem_head? hhead), ih htext]

theorem stripReturn_cons {c c' : Char} :
    stripReturn (c :: c' :: text) = c :: stripReturn (c' :: text) := by
  rw [stripReturn, stripReturn, List.getLast?_cons_cons]
  split <;> rfl

/-- The end of a line becomes a line feed. -/
theorem unixEnds_line (h : '\n' ∉ front) (text : List Char) :
    unixEnds (front ++ '\n' :: text) = stripReturn front ++ '\n' :: unixEnds text := by
  induction front with
  | nil => rfl
  | cons c front ih =>
    obtain ⟨hc, hfront⟩ := List.ne_and_not_mem_of_not_mem_cons h
    cases front with
    | nil =>
      by_cases hreturn : c = '\r'
      · subst hreturn
        rfl
      · have hstrip : stripReturn [c] = [c] := if_neg fun h => hreturn (Option.some.inj h)
        rw [List.cons_append, unixEnds_cons fun h => absurd h hreturn, ih hfront, hstrip]
        rfl
    | cons c' front =>
      have hc' : c' ≠ '\n' := (List.ne_of_not_mem_cons hfront).symm
      have hhead : (c' :: front ++ '\n' :: text).head? ≠ some '\n' := fun h =>
        hc' (Option.some.inj h)
      rw [List.cons_append, unixEnds_cons fun _ => hhead, ih hfront, stripReturn_cons]
      rfl

/-- Lines joined by line feeds are the text with its line ends as line feeds, up to the end of the
last line. -/
theorem Lines.unixEnds_flatten {ls : List (List Char)} (h : Lines ls) :
    ∃ back, (back = [] ∨ back = ['\n']) ∧
      unixEnds ls.flatten = ['\n'].intercalate (ls.map stripEnd) ++ back := by
  induction h with
  | nil => exact ⟨[], .inl rfl, rfl⟩
  | last line _ hline =>
    refine ⟨[], .inl rfl, ?_⟩
    have hend : stripEnd line = line := if_neg fun hlast => hline (List.mem_of_getLast? hlast)
    rw [List.flatten_singleton, unixEnds_of_notMem hline, List.map_singleton, hend,
      List.intercalate_singleton, List.append_nil]
  | cons line hline hrest ih =>
    rename_i rest
    have hend : stripEnd (line ++ ['\n']) = stripReturn line := by
      rw [stripEnd, List.getLast?_concat, if_pos rfl, List.dropLast_concat]
    rw [List.flatten_cons, List.append_assoc, List.singleton_append, unixEnds_line hline,
      List.map_cons, hend]
    cases rest with
    | nil => exact ⟨['\n'], .inr rfl, by simp [unixEnds]⟩
    | cons next rest =>
      obtain ⟨back, hback, hflatten⟩ := ih
      refine ⟨back, hback, ?_⟩
      rw [hflatten, List.map_cons, List.intercalate_cons_cons]
      simp only [List.append_assoc, List.cons_append, List.nil_append]

/-- Where no line end is cut in two. -/
theorem unixEnds_append (h : front.getLast? = some '\r' → text.head? ≠ some '\n') :
    unixEnds (front ++ text) = unixEnds front ++ unixEnds text := by
  fun_induction unixEnds front with
  | case1 => rfl
  | case2 front ih =>
    have hfront : front.getLast? = some '\r' → text.head? ≠ some '\n' := fun hlast => by
      obtain ⟨last, hfront⟩ := List.getLast?_eq_some_iff.mp hlast
      exact h (by rw [hfront, ← List.cons_append, ← List.cons_append, List.getLast?_concat])
    rw [List.cons_append, List.cons_append, unixEnds, ih hfront]
    rfl
  | case3 c front hnot ih =>
    have hfront : front.getLast? = some '\r' → text.head? ≠ some '\n' := fun hlast => by
      obtain ⟨last, hfront⟩ := List.getLast?_eq_some_iff.mp hlast
      exact h (by rw [hfront, ← List.cons_append, List.getLast?_concat])
    rw [List.cons_append, unixEnds_cons, ih hfront]
    · rfl
    · rintro rfl hhead
      cases front with
      | nil => exact h rfl hhead
      | cons c' front =>
        cases Option.some.inj hhead
        exact hnot front rfl rfl

/-- The line ends are line feeds already where no carriage return stands ahead of one. -/
theorem unixEnds_eq_self_iff : unixEnds text = text ↔ ¬ ['\r', '\n'] <:+: text := by
  fun_induction unixEnds text with
  | case1 => simp
  | case2 text ih =>
    refine iff_of_false (fun h => absurd (List.cons.inj h).1 (by decide)) (not_not_intro ?_)
    exact ⟨[], text, rfl⟩
  | case3 c text hnot ih =>
    rw [List.cons.injEq, and_iff_right rfl, ih, List.infix_cons_iff, not_or]
    refine (and_iff_right ?_).symm
    rintro ⟨rest, hrest⟩
    cases hrest
    exact hnot rest rfl rfl

theorem mem_of_mem_unixEnds {c : Char} (h : c ∈ unixEnds text) : c ∈ text := by
  fun_induction unixEnds text with
  | case1 => exact h
  | case2 text ih =>
    rcases List.mem_cons.mp h with rfl | h
    · exact List.mem_cons_of_mem _ List.mem_cons_self
    · exact List.mem_cons_of_mem _ (List.mem_cons_of_mem _ (ih h))
  | case3 c' text hnot ih =>
    rcases List.mem_cons.mp h with rfl | h
    · exact List.mem_cons_self
    · exact List.mem_cons_of_mem _ (ih h)

theorem unixEnds_eq_nil_iff : unixEnds text = [] ↔ text = [] := by
  fun_induction unixEnds text with
  | case1 => exact Iff.rfl
  | case2 | case3 => exact ⟨nofun, nofun⟩

theorem getLast?_unixEnds : (unixEnds text).getLast? = text.getLast? := by
  fun_induction unixEnds text with
  | case1 => rfl
  | case2 text ih =>
    cases text with
    | nil => rfl
    | cons c text =>
      obtain ⟨c', rest, hrest⟩ := List.exists_cons_of_ne_nil
        fun h => List.cons_ne_nil c text (unixEnds_eq_nil_iff.mp h)
      rw [hrest, List.getLast?_cons_cons, ← hrest, ih]
      rfl
  | case3 c text hnot ih =>
    cases text with
    | nil => rfl
    | cons c' text =>
      obtain ⟨c'', rest, hrest⟩ := List.exists_cons_of_ne_nil
        fun h => List.cons_ne_nil c' text (unixEnds_eq_nil_iff.mp h)
      rw [hrest, List.getLast?_cons_cons, ← hrest, ih, List.getLast?_cons_cons]

theorem Trimmed.unixEnds (h : Trimmed text) : Trimmed (unixEnds text) where
  head c hc := by
    cases text with
    | nil => cases hc
    | cons c' text =>
      have hreturn : c' ≠ '\r' := by
        rintro rfl
        exact absurd (h.head '\r' rfl) (by decide)
      rw [unixEnds_cons fun h => absurd h hreturn] at hc
      exact h.head c hc
  last c hc := h.last c (getLast?_unixEnds ▸ hc)

/-- It does not matter which is done first. -/
theorem trim_unixEnds (text : List Char) : trim (unixEnds text) = unixEnds (trim text) := by
  obtain ⟨front, back, hfront, hback, htext⟩ := exists_trim text
  have htrimmed := trimmed_trim text
  have hblank {blank : List Char} (h : ∀ c ∈ blank, isWhitespace c = true) :
      ∀ c ∈ unixEnds blank, isWhitespace c = true := fun c hc => h c (mem_of_mem_unixEnds hc)
  have hback' : unixEnds (trim text ++ back) = unixEnds (trim text) ++ unixEnds back :=
    unixEnds_append fun hlast => absurd (htrimmed.last '\r' hlast) (by decide)
  cases htrim : trim text with
  | nil =>
    have hall : ∀ c ∈ text, isWhitespace c = true := fun c hc => by
      rw [htext, htrim, List.nil_append] at hc
      exact (List.mem_append.mp hc).elim (hfront c) (hback c)
    have hnil := trim_append _ [] [] (hblank hall) (List.forall_mem_nil _)
    rwa [List.append_nil, List.append_nil] at hnil
  | cons c rest =>
    have hhead : (trim text ++ back).head? ≠ some '\n' := fun h => by
      rw [htrim] at h
      have hblank := htrimmed.head '\n' (by rw [htrim]; exact h)
      exact absurd hblank (by decide)
    rw [← htrim]
    conv_lhs => rw [htext, unixEnds_append fun _ => hhead, hback']
    exact trim_eq htrimmed.unixEnds (hblank hfront) (hblank hback)

/-- The lines of a text, joined by line feeds, are the text with its line ends as line feeds. -/
theorem trim_intercalate_lines {ls : List (List Char)} (h : Lines ls) :
    trim (['\n'].intercalate (ls.map stripEnd)) = unixEnds (trim ls.flatten) := by
  obtain ⟨back, hback, hflatten⟩ := h.unixEnds_flatten
  have hblank : ∀ c ∈ back, isWhitespace c = true := by
    rcases hback with rfl | rfl
    · exact List.forall_mem_nil _
    · exact isWhitespace_newline
  rw [← trim_unixEnds, hflatten]
  exact (trim_append [] _ back (List.forall_mem_nil _) hblank).symm

end Text
