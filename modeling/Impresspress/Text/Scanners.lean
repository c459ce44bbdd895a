import Impresspress.Text.Lines

/-!
# Scanners that start anew on every line

A scanner reads a text character by character and marks some of the characters. One that is back in
its first state after each line feed can be followed line by line: what it marks in a text does not
change with the lines in which it marks nothing, with the form of the line ends, or with white space
at the ends of the text. A text is cut into pieces at the characters that a scanner marks.

## Main definitions

* `Text.Scanner`, `Text.Scanner.marks`: a scanner, and whether it marks a character of a text.
* `Text.Scanner.LineWise`: a scanner that starts anew on every line.
* `Text.Scanner.pieces`: a text cut at the marked characters.

## Main results

* `Text.Scanner.LineWise.marks_filter`, `Text.Scanner.LineWise.marks_unixEnds`,
  `Text.Scanner.LineWise.marks_trim`: what does not change the marks.
* `Text.Scanner.pieces_unmarked`, `Text.Scanner.pieces_mark`: the pieces have no marks, and pieces
  without marks are cut apart again.
-/

namespace Text

structure Scanner (State : Type) where
  init : State
  step : State → Char → State
  mark : State → Char → Bool

namespace Scanner

variable {State : Type} (M : Scanner State)

/-- The state after a text. -/
def after (q : State) (text : List Char) : State := text.foldl M.step q

/-- Whether a character of the text is marked. -/
def marks : State → List Char → Bool
  | _, [] => false
  | q, c :: text => M.mark q c || marks (M.step q c) text

/-- The text cut at the marked characters; nothing is left of an empty end. -/
def pieces (q : State) (piece : List Char) : List Char → List (List Char)
  | [] => if piece = [] then [] else [piece]
  | c :: text =>
    if M.mark q c then piece :: pieces (M.step q c) [] text
    else pieces (M.step q c) (piece ++ [c]) text

attribute [local simp] marks pieces

variable {M} {q : State} {x y text : List Char}

theorem after_append : M.after q (x ++ y) = M.after (M.after q x) y := List.foldl_append

theorem marks_append : M.marks q (x ++ y) = (M.marks q x || M.marks (M.after q x) y) := by
  induction x generalizing q with
  | nil => rfl
  | cons c x ih => rw [List.cons_append, marks, marks, ih, Bool.or_assoc]; rfl

/-- A mark stands somewhere. -/
theorem marks_iff : M.marks q text = true ↔
    ∃ front c back, text = front ++ c :: back ∧ M.mark (M.after q front) c = true := by
  induction text generalizing q with
  | nil =>
    refine ⟨nofun, fun ⟨front, c, back, htext, _⟩ => ?_⟩
    exact absurd htext.symm (List.append_ne_nil_of_right_ne_nil front (List.cons_ne_nil c back))
  | cons c text ih =>
    rw [marks, Bool.or_eq_true, ih]
    constructor
    · rintro (hmark | ⟨front, c', back, rfl, hmark⟩)
      · exact ⟨[], c, text, rfl, hmark⟩
      · exact ⟨c :: front, c', back, rfl, hmark⟩
    · rintro ⟨front, c', back, htext, hmark⟩
      cases front with
      | nil =>
        cases htext
        exact .inl hmark
      | cons c'' front =>
        cases htext
        exact .inr ⟨front, c', back, rfl, hmark⟩

/-! ## Line by line -/

/-- A scanner that is in its first state at the start of every line, white space ahead of it or
not, and to which the two forms of a line's end are the same. -/
structure LineWise (M : Scanner State) : Prop where
  newline : ∀ q, M.step q '\n' = M.init
  blank : ∀ c, isWhitespace c = true → M.step M.init c = M.init
  blank_mark : ∀ c, isWhitespace c = true → M.mark M.init c = false
  return_mark : ∀ q, M.mark q '\r' = false
  return_newline : ∀ q, M.mark (M.step q '\r') '\n' = M.mark q '\n'

namespace LineWise

theorem after_blank (h : M.LineWise) (hblank : ∀ c ∈ x, isWhitespace c = true) :
    M.after M.init x = M.init := by
  induction x with
  | nil => rfl
  | cons c x ih =>
    rw [after, List.foldl_cons, h.blank c (hblank c List.mem_cons_self)]
    exact ih fun c' hc' => hblank c' (List.mem_cons_of_mem c hc')

theorem marks_blank (h : M.LineWise) (hblank : ∀ c ∈ x, isWhitespace c = true) :
    M.marks M.init x = false := by
  induction x with
  | nil => rfl
  | cons c x ih =>
    rw [marks, h.blank_mark c (hblank c List.mem_cons_self),
      h.blank c (hblank c List.mem_cons_self), Bool.false_or]
    exact ih fun c' hc' => hblank c' (List.mem_cons_of_mem c hc')

/-- At the end of a line the scanner starts anew. -/
theorem after_line (h : M.LineWise) : M.after q (x ++ ['\n']) = M.init := by
  rw [after_append]
  exact h.newline _

/-- Lines without marks can be left out. -/
theorem marks_filter (h : M.LineWise) {ls : List (List Char)} (hls : Lines ls)
    (keep : List Char → Bool) (hkeep : ∀ l ∈ ls, keep l = false → M.marks M.init l = false) :
    M.marks M.init (ls.filter keep).flatten = M.marks M.init ls.flatten := by
  induction hls with
  | nil => rfl
  | last line _ _ =>
    rw [List.filter_cons, List.filter_nil]
    split
    · rfl
    · rename_i hnot
      rw [List.flatten_singleton, hkeep line List.mem_cons_self (eq_false_of_ne_true hnot)]
      rfl
  | cons line hline hrest ih =>
    have hrest' := ih fun l hl => hkeep l (List.mem_cons_of_mem _ hl)
    rw [List.filter_cons, List.flatten_cons, marks_append, h.after_line, ← hrest']
    split
    · rw [List.flatten_cons, marks_append, h.after_line]
    · rename_i hnot
      rw [hkeep _ List.mem_cons_self (eq_false_of_ne_true hnot), Bool.false_or]

/-- Nor do they matter when the text is ended after them. -/
theorem marks_of_filter_concat (h : M.LineWise) {ls : List (List Char)} (hls : Lines ls)
    (keep : List Char → Bool)
    (hmarks : M.marks M.init ((ls.filter keep).flatten ++ ['\n']) = true) :
    M.marks M.init (ls.flatten ++ ['\n']) = true := by
  have hend : M.marks M.init ['\n'] = false := h.marks_blank isWhitespace_newline
  induction hls with
  | nil => exact hmarks
  | last line _ _ =>
    rw [List.filter_cons, List.filter_nil] at hmarks
    split at hmarks
    · exact hmarks
    · rw [List.flatten_nil, List.nil_append, hend] at hmarks
      cases hmarks
  | cons line _ _ ih =>
    rw [List.flatten_cons, List.append_assoc, marks_append, h.after_line, Bool.or_eq_true]
    rw [List.filter_cons] at hmarks
    split at hmarks
    · rw [List.flatten_cons, List.append_assoc, marks_append, h.after_line,
        Bool.or_eq_true] at hmarks
      exact hmarks.imp_right ih
    · exact .inr (ih hmarks)

theorem marks_unixEnds (h : M.LineWise) : M.marks q (unixEnds text) = M.marks q text := by
  fun_induction unixEnds text generalizing q with
  | case1 => rfl
  | case2 text ih =>
    rw [marks, ih, marks, marks, h.return_mark, h.return_newline, h.newline, h.newline,
      Bool.false_or]
  | case3 c text _ ih => rw [marks, marks, ih]

/-- What is marked in the trimmed text is marked in the text. -/
theorem marks_of_trim (h : M.LineWise) (hmarks : M.marks M.init (trim text) = true) :
    M.marks M.init text = true := by
  obtain ⟨front, back, hfront, -, htext⟩ := exists_trim text
  rw [htext, marks_append, h.after_blank hfront, marks_append, hmarks, Bool.true_or, Bool.or_true]

theorem marks_eq_false_of_blank (hmark : ∀ q c, M.mark q c = true → isWhitespace c = false)
    (hblank : ∀ c ∈ x, isWhitespace c = true) : M.marks q x = false := by
  refine eq_false_of_ne_true fun hmarks => ?_
  obtain ⟨front, c, back, rfl, hc⟩ := marks_iff.mp hmarks
  have hspace := hblank c (List.mem_append_right front List.mem_cons_self)
  rw [hmark _ c hc] at hspace
  cases hspace

theorem marks_trim (h : M.LineWise) (hmark : ∀ q c, M.mark q c = true → isWhitespace c = false) :
    M.marks M.init (trim text) = M.marks M.init text := by
  obtain ⟨front, back, hfront, hback, htext⟩ := exists_trim text
  conv_rhs => rw [htext]
  rw [marks_append, marks_append, marks_eq_false_of_blank hmark hfront, Bool.false_or,
    h.after_blank hfront, marks_eq_false_of_blank hmark hback, Bool.or_false]

end LineWise

/-! ## Pieces -/

/-- After a mark the scanner starts anew. -/
def Resets (M : Scanner State) : Prop := ∀ q c, M.mark q c = true → M.step q c = M.init

/-- The pieces have no marks. -/
theorem pieces_unmarked (hresets : M.Resets) (piece : List Char)
    (hpiece : M.marks M.init piece = false) {part : List Char}
    (hpart : part ∈ M.pieces (M.after M.init piece) piece text) : M.marks M.init part = false := by
  induction text generalizing piece with
  | nil =>
    rw [pieces] at hpart
    split at hpart
    · cases hpart
    · rwa [List.mem_singleton.mp hpart]
  | cons c text ih =>
    rw [pieces] at hpart
    split at hpart
    · rename_i hmark
      rcases List.mem_cons.mp hpart with rfl | hpart
      · exact hpiece
      · rw [hresets _ c hmark] at hpart
        exact ih [] rfl hpart
    · rename_i hmark
      have hnext : M.step (M.after M.init piece) c = M.after M.init (piece ++ [c]) := by
        rw [after_append]
        rfl
      rw [hnext] at hpart
      refine ih _ ?_ hpart
      rw [marks_append, hpiece, Bool.false_or, marks, marks, Bool.or_false]
      exact eq_false_of_ne_true hmark

/-- A text without marks stays in one piece. -/
theorem pieces_append (hx : M.marks q x = false) (piece text : List Char) :
    M.pieces q piece (x ++ text) = M.pieces (M.after q x) (piece ++ x) text := by
  induction x generalizing q piece with
  | nil => rw [List.append_nil]; rfl
  | cons c x ih =>
    rw [marks, Bool.or_eq_false_iff] at hx
    rw [List.cons_append, pieces, if_neg (by rw [hx.1]; exact Bool.false_ne_true), ih hx.2,
      List.append_assoc, List.singleton_append]
    rfl

/-- A mark ends a piece. -/
theorem pieces_mark (hresets : M.Resets) {c : Char} (text : List Char)
    (hx : M.marks M.init x = false) (hmark : M.mark (M.after M.init x) c = true) :
    M.pieces M.init [] (x ++ c :: text) = x :: M.pieces M.init [] text := by
  rw [pieces_append hx, pieces, if_pos hmark, List.nil_append, hresets _ c hmark]

/-- The pieces of a text are cut one after the other. -/
theorem exists_pieces_append (front : List Char) (q : State) (piece : List Char) :
    ∃ done last, (last = piece ++ front ∨ ∃ first, first ++ last = front) ∧
      ∀ text, M.pieces q piece (front ++ text) = done ++ M.pieces (M.after q front) last text := by
  induction front generalizing q piece with
  | nil => exact ⟨[], piece, .inl (List.append_nil piece).symm, fun _ => rfl⟩
  | cons c front ih =>
    by_cases hmark : M.mark q c = true
    · obtain ⟨done, last, hlast, hpieces⟩ := ih (M.step q c) []
      refine ⟨piece :: done, last, .inr ?_, fun text => ?_⟩
      · rcases hlast with rfl | ⟨first, rfl⟩
        · exact ⟨[c], rfl⟩
        · exact ⟨c :: first, rfl⟩
      · rw [List.cons_append, pieces, if_pos hmark, hpieces]
        rfl
    · obtain ⟨done, last, hlast, hpieces⟩ := ih (M.step q c) (piece ++ [c])
      refine ⟨done, last, ?_, fun text => ?_⟩
      · rcases hlast with rfl | ⟨first, rfl⟩
        · exact .inl (by rw [List.append_assoc, List.singleton_append])
        · exact .inr ⟨c :: first, rfl⟩
      · rw [List.cons_append, pieces, if_neg hmark, hpieces]
        rfl

/-- What is put ahead of a text is put ahead of its first piece. -/
theorem pieces_cases (q : State) (text : List Char) :
    (∀ piece, M.pieces q piece text = if piece ++ text = [] then [] else [piece ++ text]) ∨
      ∃ first rest, ∀ piece, M.pieces q piece text = (piece ++ first) :: rest := by
  induction text generalizing q with
  | nil => exact .inl fun piece => by rw [pieces, List.append_nil]
  | cons c text ih =>
    by_cases hmark : M.mark q c = true
    · exact .inr ⟨[], M.pieces (M.step q c) [] text, fun piece => by
        rw [pieces, if_pos hmark, List.append_nil]⟩
    · rcases ih (M.step q c) with hone | ⟨first, rest, hmore⟩
      · refine .inl fun piece => ?_
        rw [pieces, if_neg hmark, hone, List.append_assoc, List.singleton_append]
      · refine .inr ⟨c :: first, rest, fun piece => ?_⟩
        rw [pieces, if_neg hmark, hmore, List.append_assoc, List.singleton_append]

end Scanner

end Text
