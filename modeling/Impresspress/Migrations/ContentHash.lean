import Impresspress.Migrations.Reading

/-!
# What a file's content hash identifies

The hash is that of the statements joined by a semicolon and a line feed. A statement can hold these
two characters itself, at the end of an inline comment. Texts of one hash have the same statements
but for that, and every list of statements is that of some text, so that a file whose statements
could also be joined from others shares its hash with another file.

## Main definitions

* `Migrations.IsStatement`, `Migrations.render`: what can be a statement, and a text of some.
* `Migrations.Unambiguous`: statements that are not joined from others.

## Main results

* `Migrations.executableStatements_render`: the statements of that text.
* `Migrations.eq_of_intercalate_eq`, `Migrations.exists_intercalate_eq`: unambiguous statements are
  told by their join, and others are not.
-/

namespace Migrations

open Text

/-! ## What can be a statement -/

/-- At the start of a line, after one dash there, or elsewhere. -/
inductive LineStart
  | start
  | dash
  | within
  deriving DecidableEq, Repr

/-- The second dash of a comment line is marked. -/
def commentLines : Scanner LineStart where
  init := .start
  step state c :=
    if c = '\n' then .start
    else match state with
      | .start => if isWhitespace c then .start else if c = '-' then .dash else .within
      | .dash | .within => .within
  mark state c := state == .dash && c == '-'

theorem commentLines_lineWise : commentLines.LineWise where
  newline q := by simp [commentLines]
  blank c hc := by simp [commentLines, hc]
  blank_mark c hc := by simp [commentLines]
  return_mark q := by simp [commentLines]
  return_newline q := by simp [commentLines]

/-- Further into a line nothing is marked. -/
theorem marks_within {line : List Char} (hline : '\n' ∉ line) :
    commentLines.marks .within line = false := by
  induction line with
  | nil => rfl
  | cons c line ih =>
    obtain ⟨hc, hline⟩ := List.ne_and_not_mem_of_not_mem_cons hline
    have hstep : commentLines.step .within c = .within := if_neg hc.symm
    rw [Scanner.marks, hstep, ih hline]
    rfl

/-- A line is marked when it is a comment. -/
theorem marks_line {line : List Char} (hline : '\n' ∉ line) :
    commentLines.marks commentLines.init line = isLineComment line := by
  induction line with
  | nil => rfl
  | cons c line ih =>
    obtain ⟨hc, hrest⟩ := List.ne_and_not_mem_of_not_mem_cons hline
    rw [Scanner.marks, show commentLines.mark commentLines.init c = false from rfl, Bool.false_or]
    by_cases hspace : isWhitespace c = true
    · rw [commentLines_lineWise.blank c hspace, ih hrest, isLineComment, isLineComment, trimStart,
        trimStart, List.dropWhile_cons_of_pos hspace]
    · rw [isLineComment, trimStart, List.dropWhile_cons_of_neg hspace]
      by_cases hdash : c = '-'
      · subst hdash
        cases line with
        | nil => rfl
        | cons c' line =>
          obtain ⟨hc', hline'⟩ := List.ne_and_not_mem_of_not_mem_cons hrest
          have hwithin : commentLines.step .dash c' = .within := if_neg hc'.symm
          change (c' == '-' || commentLines.marks (commentLines.step .dash c') line) = _
          rw [hwithin, marks_within hline', Bool.or_false, Bool.beq_comm]
          simp [List.isPrefixOf]
      · have hstep : commentLines.step commentLines.init c = .within := by
          simp [commentLines, hc.symm, hspace, hdash]
        have hne : ('-' == c) = false := beq_eq_false_iff_ne.mpr (Ne.symm hdash)
        rw [hstep, marks_within hrest, List.isPrefixOf, hne, Bool.false_and]

/-- A text is marked when one of its lines is a comment. -/
theorem marks_lines {ls : List (List Char)} (hls : Lines ls) :
    commentLines.marks commentLines.init ls.flatten = ls.any isLineComment := by
  induction hls with
  | nil => rfl
  | last line _ hline => rw [List.flatten_singleton, marks_line hline, List.any_cons, List.any_nil,
      Bool.or_false]
  | cons line hline _ ih =>
    have hend : commentLines.marks (commentLines.after commentLines.init line) ['\n'] = false := by
      simp [Scanner.marks, commentLines]
    rw [List.flatten_cons, Scanner.marks_append, commentLines_lineWise.after_line, ih,
      List.any_cons, Scanner.marks_append, hend, Bool.or_false, marks_line hline,
      isLineComment_append isWhitespace_newline]

/-- A text that is trimmed, plain and of one piece, and has no comment lines. -/
structure IsStatement (s : List Char) : Prop where
  ne_nil : s ≠ []
  trimmed : Trimmed s
  whole : splitter.marks splitter.init s = false
  lines : commentLines.marks commentLines.init s = false
  plain : Plain s

/-! ## The statements of a text can be statements -/

/-- A literal goes on through white space to the end of the line. -/
theorem marks_literal {blank : List Char} (h : ∀ c ∈ blank, isWhitespace c = true) :
    unplain.marks .literal (blank ++ ['\n']) = true := by
  induction blank with
  | nil => rfl
  | cons c blank ih =>
    rw [List.cons_append, Scanner.marks]
    by_cases hline : c = '\n'
    · rw [hline]
      rfl
    · have hquote : c ≠ '\'' := by
        rintro rfl
        exact absurd (h _ List.mem_cons_self) (by decide)
      have hstep : unplain.step .literal c = .literal := by
        simp [unplain, Place.next, hline, hquote]
      rw [hstep, ih fun c' hc' => h c' (List.mem_cons_of_mem c hc'), Bool.or_true]

theorem unplain_mark_newline {p : Place} : unplain.mark p '\n' = true ↔ p = .literal := by
  cases p <;> decide

/-- White space at the ends of a text hides nothing that is not plain. -/
theorem Plain.trim {text : List Char} (h : Plain text) : Plain (trim text) := by
  refine eq_false_of_ne_true fun hmarks => ?_
  obtain ⟨front, back, hfront, hback, htext⟩ := exists_trim text
  rw [Plain, htext, List.append_assoc, Scanner.marks_append, unplain_lineWise.after_blank hfront,
    List.append_assoc, Scanner.marks_append, Bool.or_eq_false_iff, Bool.or_eq_false_iff] at h
  rw [Scanner.marks_append, h.2.1, Bool.false_or, Scanner.marks, Scanner.marks, Bool.or_false,
    unplain_mark_newline] at hmarks
  rw [hmarks, marks_literal hback] at h
  cases h.2.2

theorem Plain.unixEnds {text : List Char} (h : Plain text) (htext : Trimmed text) :
    Plain (Text.unixEnds text) := by
  have hconcat : Text.unixEnds text ++ ['\n'] = Text.unixEnds (text ++ ['\n']) := by
    rw [unixEnds_append fun hlast => absurd (htext.last '\r' hlast) (by decide)]
    rfl
  rw [Plain, hconcat, unplain_lineWise.marks_unixEnds]
  exact h

theorem Plain.executable {piece : List Char} (h : Plain piece) : Plain (executable piece) := by
  have hkept : Plain (kept piece).flatten := by
    refine eq_false_of_ne_true fun hmarks => ?_
    have hpiece := unplain_lineWise.marks_of_filter_concat (lines_splitInclusive piece) _ hmarks
    rw [flatten_splitInclusive, h] at hpiece
    cases hpiece
  rw [executable_eq]
  exact hkept.trim.unixEnds (trimmed_trim _)

/-- The pieces of a plain text are plain. -/
theorem plain_of_mem_pieces {q : ScanState} (piece : List Char) {text : List Char}
    (h : Sees q (unplain.after unplain.init piece))
    (hplain : unplain.marks unplain.init (piece ++ (text ++ ['\n'])) = false) {part : List Char}
    (hpart : part ∈ splitter.pieces q piece text) : Plain part := by
  induction text generalizing q piece with
  | nil =>
    rw [Scanner.pieces] at hpart
    split at hpart
    · cases hpart
    · rw [List.mem_singleton.mp hpart]
      exact hplain
  | cons c text ih =>
    have hconcat : unplain.after unplain.init (piece ++ [c]) =
        (unplain.after unplain.init piece).next c := Scanner.after_append
    rw [Scanner.pieces] at hpart
    split at hpart
    · rename_i hcut
      rw [Scanner.marks_append, List.cons_append, Scanner.marks, Bool.or_eq_false_iff,
        Bool.or_eq_false_iff] at hplain
      obtain ⟨hpiece, hmark, htext⟩ := hplain
      have hreader := hcut
      rw [h.mark hmark, Bool.and_eq_true] at hreader
      have hinit : unplain.step (unplain.after unplain.init piece) c = unplain.init :=
        reader_resets _ c hreader.1
      rcases List.mem_cons.mp hpart with rfl | hpart
      · rw [Plain, Scanner.marks_append, hpiece, Bool.false_or, Scanner.marks, Scanner.marks,
          Bool.or_false]
        refine eq_false_of_ne_true fun hnewline => ?_
        rw [unplain_mark_newline.mp hnewline] at hreader
        simp [reader] at hreader
      · refine ih [] ?_ ?_ hpart
        · have hstep := h.step c
          rwa [show (unplain.after unplain.init piece).next c = unplain.init from hinit] at hstep
        · rw [List.nil_append, ← hinit]
          exact htext
    · refine ih (piece ++ [c]) (by rw [hconcat]; exact h.step c) ?_ hpart
      rwa [List.append_assoc, List.singleton_append, ← List.cons_append]

theorem isStatement_of_mem {sql s : List Char} (hsql : Plain sql)
    (hs : s ∈ executableStatements sql) : IsStatement s := by
  obtain ⟨hmem, hne⟩ := List.mem_filter.mp hs
  obtain ⟨piece, hpiece, rfl⟩ := List.mem_map.mp hmem
  have hplain : Plain piece := plain_of_mem_pieces [] Sees.init hsql hpiece
  exact {
    ne_nil := of_decide_eq_true hne
    trimmed := trimmed_trim _
    whole := by
      rw [marks_executable splitter_skipsComments splitter_mark_visible]
      exact Scanner.pieces_unmarked splitter_resets [] rfl hpiece
    lines := by
      refine eq_false_of_ne_true fun hmarks => ?_
      rw [executable_eq, commentLines_lineWise.marks_unixEnds] at hmarks
      have hkept := commentLines_lineWise.marks_of_trim hmarks
      rw [marks_lines (lines_kept piece), List.any_eq_true] at hkept
      obtain ⟨line, hline, hcomment⟩ := hkept
      have hnot := List.of_mem_filter hline
      rw [hcomment] at hnot
      cases hnot
    plain := hplain.executable }

/-! ## A text of given statements -/

/-- The text with a carriage return at every line end. -/
def dosEnds (text : List Char) : List Char :=
  text.flatMap fun c => if c = '\n' then ['\r', '\n'] else [c]

theorem unixEnds_dosEnds (text : List Char) : unixEnds (dosEnds text) = text := by
  induction text with
  | nil => rfl
  | cons c text ih =>
    by_cases hline : c = '\n'
    · subst hline
      exact congrArg ('\n' :: ·) ih
    · have hcons : dosEnds (c :: text) = c :: dosEnds text := by
        rw [dosEnds, List.flatMap_cons, if_neg hline]
        rfl
      rw [hcons, unixEnds_cons, ih]
      rintro - hhead
      cases text with
      | nil => cases hhead
      | cons c' text =>
        rw [dosEnds, List.flatMap_cons] at hhead
        split at hhead
        · cases hhead
        · rename_i hnot
          exact hnot (Option.some.inj hhead)

theorem trimmed_dosEnds {text : List Char} (h : Trimmed text) : Trimmed (dosEnds text) where
  head c hc := by
    cases text with
    | nil => cases hc
    | cons c' text =>
      have hline : c' ≠ '\n' := by
        rintro rfl
        exact absurd (h.head '\n' rfl) (by decide)
      rw [dosEnds, List.flatMap_cons, if_neg hline] at hc
      exact h.head c hc
  last c hc := by
    rw [← getLast?_unixEnds, unixEnds_dosEnds] at hc
    exact h.last c hc

/-- A text of some statements. -/
def render (statements : List (List Char)) : List Char :=
  statements.flatMap fun s => dosEnds s ++ ['\n', ';']

theorem executable_dosEnds {s : List Char} (h : IsStatement s) :
    executable (dosEnds s ++ ['\n']) = s := by
  have hkept : kept (dosEnds s ++ ['\n']) = splitInclusive (dosEnds s ++ ['\n']) := by
    have hlines := marks_lines (lines_splitInclusive (dosEnds s ++ ['\n']))
    have hend : commentLines.marks (commentLines.after commentLines.init (dosEnds s)) ['\n'] =
        false := by
      simp [Scanner.marks, commentLines]
    rw [flatten_splitInclusive, Scanner.marks_append, hend, Bool.or_false,
      ← commentLines_lineWise.marks_unixEnds, unixEnds_dosEnds, h.lines] at hlines
    refine List.filter_eq_self.mpr fun line hline => ?_
    rw [eq_false_of_ne_true (List.any_eq_false.mp hlines.symm line hline)]
    rfl
  have htrim : trim (dosEnds s ++ ['\n']) = dosEnds s :=
    trim_eq (trimmed_dosEnds h.trimmed) (List.forall_mem_nil _) isWhitespace_newline
  rw [executable_eq, hkept, flatten_splitInclusive, htrim, unixEnds_dosEnds]

theorem splitStatements_render {statements : List (List Char)}
    (h : ∀ s ∈ statements, IsStatement s) :
    splitStatements (render statements) = statements.map fun s => dosEnds s ++ ['\n'] := by
  induction statements with
  | nil => rfl
  | cons s statements ih =>
    have hs := h s List.mem_cons_self
    have hmarks : splitter.marks splitter.init (dosEnds s ++ ['\n']) = false := by
      have hend : splitter.marks (splitter.after splitter.init (dosEnds s)) ['\n'] = false := by
        simp [Scanner.marks, splitter]
      rw [Scanner.marks_append, hend, Bool.or_false, ← splitter_lineWise.marks_unixEnds,
        unixEnds_dosEnds, hs.whole]
    have hend : splitter.mark (splitter.after splitter.init (dosEnds s ++ ['\n'])) ';' = true := by
      rw [splitter_lineWise.after_line]
      rfl
    have hsplit := Scanner.pieces_mark splitter_resets (render statements) hmarks hend
    have htext : render (s :: statements) = dosEnds s ++ ['\n'] ++ ';' :: render statements := by
      rw [render, List.flatMap_cons, List.append_assoc, List.append_assoc]
      rfl
    rw [splitStatements, htext, hsplit, List.map_cons]
    exact congrArg (_ :: ·) (ih fun t ht => h t (List.mem_cons_of_mem s ht))

/-- The statements of that text. -/
theorem executableStatements_render {statements : List (List Char)}
    (h : ∀ s ∈ statements, IsStatement s) :
    executableStatements (render statements) = statements := by
  have hsame : (statements.map fun s => dosEnds s ++ ['\n']).map executable = statements := by
    rw [List.map_map]
    exact map_eq_self_iff.mpr fun s hs => executable_dosEnds (h s hs)
  rw [executableStatements, splitStatements_render h, hsame]
  exact List.filter_eq_self.mpr fun s hs => decide_eq_true (h s hs).ne_nil

theorem plain_render {statements : List (List Char)} (h : ∀ s ∈ statements, IsStatement s) :
    Plain (render statements) := by
  induction statements with
  | nil => rfl
  | cons s statements ih =>
    have hs := h s List.mem_cons_self
    have hplain : unplain.marks unplain.init (dosEnds s ++ ['\n']) = false := by
      have hends : unixEnds (dosEnds s ++ ['\n']) = s ++ ['\n'] := by
        rw [unixEnds_append, unixEnds_dosEnds]
        · rfl
        · exact fun hlast => absurd ((trimmed_dosEnds hs.trimmed).last '\r' hlast) (by decide)
      rw [← unplain_lineWise.marks_unixEnds, hends]
      exact hs.plain
    have hrest := ih fun t ht => h t (List.mem_cons_of_mem s ht)
    have htext : render (s :: statements) ++ ['\n'] =
        dosEnds s ++ ['\n'] ++ ';' :: (render statements ++ ['\n']) := by
      rw [render, List.flatMap_cons, List.append_assoc, List.append_assoc, List.append_assoc]
      rfl
    rw [Plain, htext, Scanner.marks_append, hplain, Bool.false_or, unplain_lineWise.after_line]
    exact hrest

/-! ## Statements and their join -/

/-- No statement holds what a join puts between two of them, between visible characters, and none
but the last ends behind two dashes. -/
structure Unambiguous (statements : List (List Char)) : Prop where
  within : ∀ s ∈ statements, ∀ x a b y, s = x ++ a :: ';' :: '\n' :: b :: y →
    isWhitespace a = true ∨ isWhitespace b = true
  between : ∀ s ∈ statements.dropLast, (splitter.after splitter.init s).inLineComment = false

theorem Unambiguous.tail {s : List Char} {statements : List (List Char)}
    (h : Unambiguous (s :: statements)) : Unambiguous statements where
  within t ht := h.within t (List.mem_cons_of_mem s ht)
  between t ht := by
    cases statements with
    | nil => cases ht
    | cons next statements => exact h.between t (List.mem_cons_of_mem s ht)

/-- What follows the first statement in a join. -/
def joinTail (statements : List (List Char)) : List Char :=
  if statements = [] then [] else ';' :: '\n' :: [';', '\n'].intercalate statements

theorem intercalate_cons (s : List Char) (statements : List (List Char)) :
    [';', '\n'].intercalate (s :: statements) = s ++ joinTail statements := by
  cases statements with
  | nil => rw [List.intercalate_singleton, joinTail, if_pos rfl, List.append_nil]
  | cons next statements =>
    rw [List.intercalate_cons_cons, joinTail, if_neg (List.cons_ne_nil next statements),
      List.append_assoc]
    rfl

/-- The join goes on with a semicolon, or it ends. -/
theorem joinTail_ne_newline (statements : List (List Char)) (text : List Char) :
    joinTail statements ≠ '\n' :: text := by
  rw [joinTail]
  split_ifs
  · exact nofun
  · exact fun h => absurd (List.cons.inj h).1 (by decide)

theorem eq_of_joinTail {statements : List (List Char)} {text : List Char}
    (h : joinTail statements = ';' :: '\n' :: text) :
    statements ≠ [] ∧ [';', '\n'].intercalate statements = text := by
  rw [joinTail] at h
  split_ifs at h with hnil
  exact ⟨hnil, (List.cons.inj (List.cons.inj h).2).2⟩

theorem intercalate_eq_of_joinTail {x y : List (List Char)} (h : joinTail x = joinTail y) :
    [';', '\n'].intercalate x = [';', '\n'].intercalate y := by
  rw [joinTail, joinTail] at h
  split_ifs at h with hx hy hy
  · rw [hx, hy]
  · exact (List.cons.inj (List.cons.inj h).2).2

/-- What is left of the longer of two statements that start a join. -/
theorem exists_of_joinTail_eq {rest more : List (List Char)} {c : Char} {u : List Char}
    (h : joinTail rest = c :: u ++ joinTail more) :
    c = ';' ∧ ∃ u', u = '\n' :: u' ∧ rest ≠ [] ∧
      [';', '\n'].intercalate rest = u' ++ joinTail more := by
  have hrest : rest ≠ [] := by
    rintro rfl
    cases h
  rw [joinTail, if_neg hrest, List.cons_append] at h
  obtain ⟨hc, h⟩ := List.cons.inj h
  refine ⟨hc.symm, ?_⟩
  cases u with
  | nil => exact absurd h.symm (joinTail_ne_newline more _)
  | cons c' u =>
    obtain ⟨rfl, hjoin⟩ := List.cons.inj h
    exact ⟨u, rfl, hrest, hjoin⟩

theorem splitter_mark_end (q : ScanState) : splitter.mark q ';' = !q.inLineComment :=
  Bool.and_true _

/-- A semicolon within a statement is in a comment. -/
theorem IsStatement.inLineComment {x y : List Char} (h : IsStatement (x ++ ';' :: y)) :
    (splitter.after splitter.init x).inLineComment = true := by
  have hwhole := h.whole
  rw [Scanner.marks_append, Scanner.marks, Bool.or_eq_false_iff, Bool.or_eq_false_iff,
    splitter_mark_end] at hwhole
  simpa using hwhole.2.1

theorem exists_concat_visible {s : List Char} (h : IsStatement s) :
    ∃ x a, s = x ++ [a] ∧ isWhitespace a = false := by
  have hlast := List.getLast?_eq_some_getLast h.ne_nil
  exact ⟨s.dropLast, s.getLast h.ne_nil, (List.dropLast_append_getLast h.ne_nil).symm,
    h.trimmed.last _ hlast⟩

theorem exists_cons_visible {s : List Char} (h : IsStatement s) :
    ∃ b y, s = b :: y ∧ isWhitespace b = false := by
  obtain ⟨b, y, rfl⟩ := List.exists_cons_of_ne_nil h.ne_nil
  exact ⟨b, y, rfl, h.trimmed.head b rfl⟩

/-- Unambiguous statements are told by their join. -/
theorem eq_of_intercalate_eq {x y : List (List Char)} (hx : ∀ s ∈ x, IsStatement s)
    (hy : ∀ s ∈ y, IsStatement s) (hunambiguous : Unambiguous x)
    (h : [';', '\n'].intercalate x = [';', '\n'].intercalate y) : x = y := by
  induction x generalizing y with
  | nil =>
    cases y with
    | nil => rfl
    | cons t y =>
      rw [intercalate_cons] at h
      exact absurd (List.append_eq_nil_iff.mp h.symm).1 (hy t List.mem_cons_self).ne_nil
  | cons s x ih =>
    have hs := hx s List.mem_cons_self
    cases y with
    | nil =>
      rw [intercalate_cons] at h
      exact absurd (List.append_eq_nil_iff.mp h).1 hs.ne_nil
    | cons t y =>
      have ht := hy t List.mem_cons_self
      have hy' : ∀ u ∈ y, IsStatement u := fun u hu => hy u (List.mem_cons_of_mem t hu)
      have hx' : ∀ u ∈ x, IsStatement u := fun u hu => hx u (List.mem_cons_of_mem s hu)
      have hsame (htail : joinTail x = joinTail y) : x = y :=
        ih hx' hy' hunambiguous.tail (intercalate_eq_of_joinTail htail)
      rw [intercalate_cons, intercalate_cons, List.append_eq_append_iff] at h
      rcases h with ⟨u, rfl, htail⟩ | ⟨u, rfl, htail⟩
      · cases u with
        | nil => rw [List.append_nil, hsame htail]
        | cons c u =>
          -- the statement of the other list goes on behind the end of this one
          obtain ⟨rfl, u', rfl, hne, -⟩ := exists_of_joinTail_eq htail
          obtain ⟨next, more, rfl⟩ := List.exists_cons_of_ne_nil hne
          have hcode := hunambiguous.between s List.mem_cons_self
          rw [ht.inLineComment] at hcode
          cases hcode
      · cases u with
        | nil => rw [List.append_nil, hsame htail.symm]
        | cons c u =>
          -- the statement of this list holds the end of the other's
          obtain ⟨rfl, u', rfl, hne, hrest⟩ := exists_of_joinTail_eq htail
          obtain ⟨next, more, rfl⟩ := List.exists_cons_of_ne_nil hne
          obtain ⟨x', a, rfl, ha⟩ := exists_concat_visible ht
          obtain ⟨b, y', rfl, hb⟩ := exists_cons_visible (hy' next List.mem_cons_self)
          cases u' with
          | nil =>
            have hlast : (x' ++ [a] ++ [';', '\n']).getLast? = some '\n' := by
              rw [List.getLast?_append_cons]
              rfl
            exact absurd (hs.trimmed.last '\n' hlast) (by decide)
          | cons b' u' =>
            rw [intercalate_cons] at hrest
            obtain ⟨rfl, -⟩ := List.cons.inj hrest
            have hvisible := hunambiguous.within _ List.mem_cons_self x' a b u'
              (List.append_assoc x' [a] _)
            rw [ha, hb] at hvisible
            exact absurd hvisible (by decide)

/-- What stands at a line end is unmarked when it is at the end of a part and of the next. -/
theorem marks_parts {State : Type} {M : Scanner State} (h : M.LineWise) (s t : List Char) :
    M.marks M.init (s ++ ';' :: '\n' :: t) = (M.marks M.init s || (M.mark (M.after M.init s) ';' ||
      (M.mark (M.step (M.after M.init s) ';') '\n' || M.marks M.init t))) := by
  rw [Scanner.marks_append, Scanner.marks, Scanner.marks, h.newline]

theorem trimmed_parts {s t : List Char} (hs : s ≠ []) (ht : t ≠ []) :
    Trimmed (s ++ ';' :: '\n' :: t) ↔ (∀ c ∈ s.head?, isWhitespace c = false) ∧
      ∀ c ∈ t.getLast?, isWhitespace c = false := by
  obtain ⟨c, s, rfl⟩ := List.exists_cons_of_ne_nil hs
  obtain ⟨c', t, rfl⟩ := List.exists_cons_of_ne_nil ht
  have hlast : (c :: s ++ ';' :: '\n' :: c' :: t).getLast? = (c' :: t).getLast? := by
    rw [List.getLast?_append_cons, List.getLast?_cons_cons, List.getLast?_cons_cons]
  exact ⟨fun h => ⟨h.head, fun d hd => h.last d (by rwa [hlast])⟩,
    fun h => ⟨h.1, fun d hd => h.2 d (by rwa [hlast] at hd)⟩⟩

theorem commentLines_mark_end (state : LineStart) : commentLines.mark state ';' = false :=
  Bool.and_false _

theorem commentLines_mark_newline (state : LineStart) : commentLines.mark state '\n' = false :=
  Bool.and_false _

theorem splitter_mark_newline (q : ScanState) : splitter.mark q '\n' = false := Bool.and_false _

/-- Neither a semicolon nor the line end behind it is marked outside literals. -/
theorem unplain_mark_end {p : Place} :
    unplain.mark p ';' = false ↔ unplain.mark p '\n' = false := by
  cases p <;> decide

theorem unplain_mark_end_newline (p : Place) (h : unplain.mark p ';' = false) :
    unplain.mark (unplain.step p ';') '\n' = false := by
  cases p with
  | literal => cases h
  | code | dash | slash | comment => rfl

theorem plain_parts (s t : List Char) : Plain (s ++ ';' :: '\n' :: t) ↔ Plain s ∧ Plain t := by
  have hs : Plain s ↔ unplain.marks unplain.init s = false ∧
      unplain.mark (unplain.after unplain.init s) ';' = false := by
    rw [Plain, Scanner.marks_append, Bool.or_eq_false_iff, Scanner.marks, Scanner.marks,
      Bool.or_false, unplain_mark_end]
  rw [hs, Plain, List.append_assoc, List.cons_append, List.cons_append,
    marks_parts unplain_lineWise, Bool.or_eq_false_iff, Bool.or_eq_false_iff,
    Bool.or_eq_false_iff, ← and_assoc]
  refine and_congr_right fun h => ?_
  exact and_iff_right (unplain_mark_end_newline _ h.2)

/-- Two statements of which the first ends behind two dashes are one. -/
theorem IsStatement.joined {s t : List Char} (hs : IsStatement s) (ht : IsStatement t)
    (h : (splitter.after splitter.init s).inLineComment = true) :
    IsStatement (s ++ ';' :: '\n' :: t) where
  ne_nil := List.append_ne_nil_of_left_ne_nil hs.ne_nil _
  trimmed := (trimmed_parts hs.ne_nil ht.ne_nil).mpr ⟨hs.trimmed.head, ht.trimmed.last⟩
  whole := by
    rw [marks_parts splitter_lineWise, hs.whole, ht.whole, splitter_mark_end, h,
      splitter_mark_newline]
    rfl
  lines := by
    rw [marks_parts commentLines_lineWise, hs.lines, ht.lines, commentLines_mark_end,
      commentLines_mark_newline]
    rfl
  plain := (plain_parts s t).mpr ⟨hs.plain, ht.plain⟩

/-- A statement that holds what a join puts between two, between visible characters, is two. -/
theorem IsStatement.parted {s t : List Char} (h : IsStatement (s ++ ';' :: '\n' :: t))
    (hs : ∃ x a, s = x ++ [a] ∧ isWhitespace a = false)
    (ht : ∃ b y, t = b :: y ∧ isWhitespace b = false) : IsStatement s ∧ IsStatement t := by
  obtain ⟨x, a, hsa, ha⟩ := hs
  obtain ⟨b, y, htb, hb⟩ := ht
  have hsne : s ≠ [] := by rw [hsa]; exact List.concat_ne_nil a x
  have htne : t ≠ [] := by rw [htb]; exact List.cons_ne_nil b y
  obtain ⟨hhead, hlast⟩ := (trimmed_parts hsne htne).mp h.trimmed
  obtain ⟨hplain, hplain'⟩ := (plain_parts s t).mp h.plain
  have hwhole := h.whole
  have hlines := h.lines
  rw [marks_parts splitter_lineWise, Bool.or_eq_false_iff, Bool.or_eq_false_iff,
    Bool.or_eq_false_iff] at hwhole
  rw [marks_parts commentLines_lineWise, Bool.or_eq_false_iff, Bool.or_eq_false_iff,
    Bool.or_eq_false_iff] at hlines
  refine ⟨⟨hsne, ⟨hhead, fun c hc => ?_⟩, hwhole.1, hlines.1, hplain⟩,
    ⟨htne, ⟨fun c hc => ?_, hlast⟩, hwhole.2.2.2, hlines.2.2.2, hplain'⟩⟩
  · rw [hsa, List.getLast?_concat] at hc
    cases hc
    exact ha
  · rw [htb] at hc
    cases hc
    exact hb

theorem intercalate_parted (x y : List (List Char)) (s t : List Char) :
    [';', '\n'].intercalate (x ++ s :: t :: y) =
      [';', '\n'].intercalate (x ++ (s ++ ';' :: '\n' :: t) :: y) := by
  induction x with
  | nil =>
    have htail : joinTail (t :: y) = ';' :: '\n' :: (t ++ joinTail y) := by
      rw [joinTail, if_neg (List.cons_ne_nil t y), intercalate_cons]
    rw [List.nil_append, List.nil_append, intercalate_cons, intercalate_cons, htail,
      List.append_assoc]
    rfl
  | cons u x ih =>
    have hne (z : List (List Char)) (v : List Char) : x ++ v :: z ≠ [] :=
      List.append_ne_nil_of_right_ne_nil x (List.cons_ne_nil v z)
    rw [List.cons_append, List.cons_append, intercalate_cons, intercalate_cons, joinTail, joinTail,
      if_neg (hne _ _), if_neg (hne _ _), ih]

/-- Ambiguous statements are joined from others too. -/
theorem exists_intercalate_eq {x : List (List Char)} (hx : ∀ s ∈ x, IsStatement s)
    (h : ¬ Unambiguous x) : ∃ y, (∀ s ∈ y, IsStatement s) ∧ x ≠ y ∧
      [';', '\n'].intercalate x = [';', '\n'].intercalate y := by
  have hlength (before after : List (List Char)) (s t u : List Char) :
      before ++ s :: t :: after ≠ before ++ u :: after := fun heq => by
    have hlengths := congrArg List.length heq
    simp only [List.length_append, List.length_cons] at hlengths
    omega
  by_cases hwithin : ∀ s ∈ x, ∀ front a b back, s = front ++ a :: ';' :: '\n' :: b :: back →
      isWhitespace a = true ∨ isWhitespace b = true
  · have hbetween : ¬ ∀ s ∈ x.dropLast, (splitter.after splitter.init s).inLineComment = false :=
      fun hbetween => h ⟨hwithin, hbetween⟩
    push Not at hbetween
    obtain ⟨s, hs, hcomment⟩ := hbetween
    obtain ⟨before, rest, hdrop⟩ := List.append_of_mem hs
    have hne : x ≠ [] := by
      rintro rfl
      cases hs
    obtain ⟨t, after, hafter⟩ : ∃ t after, rest ++ [x.getLast hne] = t :: after :=
      List.exists_cons_of_ne_nil (List.concat_ne_nil _ _)
    have hparts : x = before ++ s :: t :: after := by
      rw [← hafter, ← List.cons_append, ← List.append_assoc, ← hdrop, List.dropLast_append_getLast]
    have hmem : ∀ u ∈ before ++ s :: t :: after, IsStatement u := hparts ▸ hx
    simp only [List.mem_append, List.mem_cons] at hmem
    refine ⟨before ++ (s ++ ';' :: '\n' :: t) :: after, fun u hu => ?_, ?_, ?_⟩
    · rw [List.mem_append, List.mem_cons] at hu
      rcases hu with hu | rfl | hu
      · exact hmem u (.inl hu)
      · exact (hmem s (.inr (.inl rfl))).joined (hmem t (.inr (.inr (.inl rfl))))
          (by simpa using hcomment)
      · exact hmem u (.inr (.inr (.inr hu)))
    · rw [hparts]
      exact hlength before after s t _
    · rw [hparts, intercalate_parted]
  · push Not at hwithin
    obtain ⟨s, hs, front, a, b, back, rfl, ha, hb⟩ := hwithin
    obtain ⟨before, after, rfl⟩ := List.append_of_mem hs
    have hassoc : front ++ a :: ';' :: '\n' :: b :: back =
        front ++ [a] ++ ';' :: '\n' :: (b :: back) := (List.append_assoc front [a] _).symm
    rw [hassoc] at hx ⊢
    simp only [List.mem_append, List.mem_cons] at hx
    obtain ⟨hs, ht⟩ := (hx _ (.inr (.inl rfl))).parted
      ⟨front, a, rfl, by simpa using ha⟩ ⟨b, back, rfl, by simpa using hb⟩
    refine ⟨before ++ (front ++ [a]) :: (b :: back) :: after, fun u hu => ?_, ?_, ?_⟩
    · rw [List.mem_append, List.mem_cons, List.mem_cons] at hu
      rcases hu with hu | rfl | rfl | hu
      · exact hx u (.inl hu)
      · exact hs
      · exact ht
      · exact hx u (.inr (.inr hu))
    · exact (hlength before after _ _ _).symm
    · rw [intercalate_parted]

/-! ## The hash -/

variable {Digest : Type}

/-- The hash tells the statements of the text from all others, comment lines do not matter, and the
statements are those that stand in the text. -/
structure Identified (sha256 : List Char → Digest) (sql : List Char) : Prop where
  hash : ∀ other, Plain other → (contentHash sha256 sql = contentHash sha256 other ↔
    executableStatements sql = executableStatements other)
  inserted : ∀ front line text, sql = front ++ text → (∀ c ∈ front.getLast?, c = '\n') →
    '\n' ∉ line → isLineComment line = true →
      executableStatements (front ++ (line ++ '\n' :: text)) = executableStatements sql
  deleted : ∀ front line text, sql = front ++ (line ++ '\n' :: text) →
    (∀ c ∈ front.getLast?, c = '\n') → '\n' ∉ line → isLineComment line = true →
      executableStatements (front ++ text) = executableStatements sql
  statements : executableStatements sql = statementsOf sql

/-- The hash tells the statements of a text exactly when they are unambiguous. -/
theorem hash_iff {sha256 : List Char → Digest} (hsha256 : Function.Injective sha256)
    {sql : List Char} (hsql : Plain sql) :
    (∀ other, Plain other → (contentHash sha256 sql = contentHash sha256 other ↔
      executableStatements sql = executableStatements other)) ↔
        Unambiguous (executableStatements sql) := by
  have hstatements : ∀ s ∈ executableStatements sql, IsStatement s := fun s hs =>
    isStatement_of_mem hsql hs
  constructor
  · intro h
    by_contra hambiguous
    obtain ⟨statements, hothers, hne, hjoin⟩ := exists_intercalate_eq hstatements hambiguous
    have hrender := executableStatements_render hothers
    have hsame := (h (render statements) (plain_render hothers)).mp (by
      rw [contentHash, contentHash, hrender, hjoin])
    exact hne (hsame.trans hrender)
  · intro hunambiguous other hother
    refine ⟨fun hhash => ?_, fun hsame => by rw [contentHash, contentHash, hsame]⟩
    exact eq_of_intercalate_eq hstatements (fun s hs => isStatement_of_mem hother hs) hunambiguous
      (hsha256 hhash)

/-- A file is identified by its hash exactly when its statements are unambiguous, none of them ends
behind a literal that looks like a comment, and none is written with carriage returns at its line
ends. -/
theorem content_hash_exactly (sha256 : List Char → Digest) (hsha256 : Function.Injective sha256)
    (sql : List Char) (hsql : Plain sql) :
    Identified sha256 sql ↔ Unambiguous (statementsOf sql) ∧ NoHiddenEnd sql ∧
      ∀ s ∈ statementsOf sql, ¬ ['\r', '\n'] <:+: s := by
  constructor
  · intro h
    have hunambiguous := (hash_iff hsha256 hsql).mp h.hash
    rw [h.statements] at hunambiguous
    exact ⟨hunambiguous, (executableStatements_eq_iff hsql).mp h.statements⟩
  · rintro ⟨hunambiguous, hexact⟩
    have hstatements := (executableStatements_eq_iff hsql).mpr hexact
    exact {
      hash := (hash_iff hsha256 hsql).mpr (by rwa [hstatements])
      inserted := fun front line text htext hfront hline hcomment => by
        rw [htext]
        exact (executableStatements_insert text hfront hline hcomment).1
      deleted := fun front line text htext hfront hline hcomment => by
        rw [htext]
        exact (executableStatements_insert text hfront hline hcomment).1.symm
      statements := hstatements }

theorem content_hash_exactly_select : Identified id "-- one\nSELECT 1\n".toList := by
  have hnone : ∀ s ∈ statementsOf "-- one\nSELECT 1\n".toList, ';' ∉ s := by decide
  refine (content_hash_exactly id Function.injective_id _ (by decide)).mpr
    ⟨⟨fun s hs x a b y hparts => ?_, by decide⟩, fun front back htext _ => ?_, by decide⟩
  · refine absurd ?_ (hnone s hs)
    rw [hparts]
    exact List.mem_append_right x (List.mem_cons_of_mem a List.mem_cons_self)
  · have hend : ';' ∈ "-- one\nSELECT 1\n".toList := by
      rw [htext]
      exact List.mem_append_right front List.mem_cons_self
    exact absurd hend (by decide)

/-- An inline comment that ends in a semicolon, and the same text cut there. -/
theorem not_always_identified : ¬ ∀ sql : List Char, Plain sql → Identified id sql := by
  intro h
  have hhash := (h "SELECT 1 -- one;\nFROM t".toList (by decide)).hash
    "SELECT 1 -- one\n;FROM t".toList (by decide)
  exact absurd (hhash.mp (by decide)) (by decide)

end Migrations
