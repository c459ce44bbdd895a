import Impresspress.Migrations.Statements

/-!
# A migration file as SQL

In SQL a string literal can hold what looks like a comment. The statements of a file, as they stand
in it, are what lies between the semicolons that are neither in a literal nor in a comment, without
the lines that are comments. The scanner of the code does not know literals, and it rewrites line
ends, so that it finds these statements exactly where neither matters.

## Main definitions

* `Migrations.reader`, `Migrations.statementsOf`: the statements as they stand in a file.
* `Migrations.Plain`: no block comments, and no semicolon or line end in a literal.
* `Migrations.NoHiddenEnd`: no statement ends behind a literal that looks like a comment.

## Main results

* `Migrations.executable_eq`: a piece without its comment lines, with its line ends as line feeds.
* `Migrations.executableStatements_eq_iff`: where the code finds the statements as they stand.
* `Migrations.executableStatements_insert`: comment lines do not matter.
-/

namespace Migrations

open Text

/-! ## Reading SQL -/

/-- Where a character stands: in code, after a dash or a slash in code, in a literal, or in a
comment. A literal is read no further than its line. -/
inductive Place
  | code
  | dash
  | slash
  | literal
  | comment
  deriving DecidableEq, Repr

def Place.next (p : Place) (c : Char) : Place :=
  if c = '\n' then .code
  else match p with
    | comment => .comment
    | literal => if c = '\'' then .code else .literal
    | code | dash | slash =>
      if c = '-' then (if p = .dash then .comment else .dash)
      else if c = '/' then .slash
      else if c = '\'' then .literal
      else .code

/-- The reader marks the semicolons that end a statement. -/
def reader : Scanner Place where
  init := .code
  step := Place.next
  mark p c := c == ';' && p != .literal && p != .comment

/-- A semicolon or a line end in a literal, and the start of a block comment, are marked. -/
def unplain : Scanner Place where
  init := .code
  step := Place.next
  mark p c := (p == .literal && (c == ';' || c == '\n')) || (p == .slash && c == '*')

/-- No block comments, and no semicolon or line end in a literal. -/
def Plain (sql : List Char) : Prop := unplain.marks unplain.init (sql ++ ['\n']) = false

instance (sql : List Char) : Decidable (Plain sql) := inferInstanceAs (Decidable (_ = _))

/-- The lines of a piece that are not comments, with their ends. -/
def kept (piece : List Char) : List (List Char) :=
  (splitInclusive piece).filter fun line => !isLineComment line

/-- The statements as they stand in the text. -/
def statementsOf (sql : List Char) : List (List Char) :=
  ((reader.pieces reader.init [] sql).map fun piece => trim (kept piece).flatten).filter (· ≠ [])

/-- A semicolon that ends a statement is not behind what the code takes for a comment: no literal
that contains two dashes has one after it on its line. -/
def NoHiddenEnd (sql : List Char) : Prop :=
  ∀ front back, sql = front ++ ';' :: back →
    reader.mark (reader.after reader.init front) ';' = true → (splitter.after splitter.init front).inLineComment = false

/-! ## The scanners line by line -/

theorem splitter_lineWise : splitter.LineWise where
  newline q := by
    obtain ⟨inLineComment, prevWasDash⟩ := q
    cases inLineComment <;> cases prevWasDash <;> rfl
  blank c hc := by
    have hdash : c ≠ '-' := by rintro rfl; exact absurd hc (by decide)
    have hend : c ≠ ';' := by rintro rfl; exact absurd hc (by decide)
    simp [splitter, hdash, hend]
  blank_mark c hc := by
    have hend : c ≠ ';' := by rintro rfl; exact absurd hc (by decide)
    simp [splitter, hend]
  return_mark q := by simp [splitter]
  return_newline q := by simp [splitter]

theorem next_newline (p : Place) : p.next '\n' = .code := if_pos rfl

theorem next_blank {c : Char} (hc : isWhitespace c = true) : Place.next .code c = .code := by
  have hdash : c ≠ '-' := by rintro rfl; exact absurd hc (by decide)
  have hslash : c ≠ '/' := by rintro rfl; exact absurd hc (by decide)
  have hquote : c ≠ '\'' := by rintro rfl; exact absurd hc (by decide)
  simp [Place.next, hdash, hslash, hquote]

theorem reader_lineWise : reader.LineWise where
  newline := next_newline
  blank _ := next_blank
  blank_mark c hc := by
    have hend : c ≠ ';' := by rintro rfl; exact absurd hc (by decide)
    simp [reader, hend]
  return_mark q := by simp [reader]
  return_newline q := by simp [reader]

theorem unplain_lineWise : unplain.LineWise where
  newline := next_newline
  blank _ := next_blank
  blank_mark c _ := by simp [unplain]
  return_mark q := by simp [unplain]
  return_newline q := by cases q <;> rfl

/-- A scanner marks nothing in a comment line. -/
structure SkipsComments {State : Type} (M : Scanner State) : Prop where
  lineWise : M.LineWise
  dash : M.mark M.init '-' = false
  dashes : M.mark (M.step M.init '-') '-' = false
  comment : ∀ c, M.mark (M.step (M.step M.init '-') '-') c = false
  stays : ∀ c, c ≠ '\n' →
    M.step (M.step (M.step M.init '-') '-') c = M.step (M.step M.init '-') '-'

theorem splitter_skipsComments : SkipsComments splitter where
  lineWise := splitter_lineWise
  dash := rfl
  dashes := rfl
  comment _ := rfl
  stays c hc := by simp [splitter, hc]

theorem reader_skipsComments : SkipsComments reader where
  lineWise := reader_lineWise
  dash := rfl
  dashes := rfl
  comment c := by simp [reader, Place.next]
  stays c hc := by simp [reader, Place.next, hc]

theorem unplain_skipsComments : SkipsComments unplain where
  lineWise := unplain_lineWise
  dash := rfl
  dashes := rfl
  comment c := by simp [unplain, Place.next]
  stays c hc := by simp [unplain, Place.next, hc]

theorem splitter_resets : splitter.Resets := by
  intro q c hmark
  simp only [splitter, Bool.and_eq_true, Bool.not_eq_eq_eq_not, Bool.not_true, beq_iff_eq] at hmark
  obtain ⟨hcode, rfl⟩ := hmark
  simp [splitter, hcode]

theorem reader_resets : reader.Resets := by
  intro p c hmark
  simp only [reader, Bool.and_eq_true, beq_iff_eq, bne_iff_ne] at hmark
  obtain ⟨⟨rfl, hliteral⟩, hcomment⟩ := hmark
  cases p with
  | code | dash | slash => rfl
  | literal => exact absurd rfl hliteral
  | comment => exact absurd rfl hcomment

/-! ## Comment lines -/

/-- A comment line: white space, two dashes and anything. -/
theorem exists_of_isLineComment {line : List Char} (h : isLineComment line = true) :
    ∃ blank rest, (∀ c ∈ blank, isWhitespace c = true) ∧ line = blank ++ '-' :: '-' :: rest := by
  obtain ⟨blank, hblank, hline⟩ := exists_trimStart line
  obtain ⟨rest, hrest⟩ := List.isPrefixOf_iff_prefix.mp h
  exact ⟨blank, rest, hblank, by rw [hline, ← hrest]; rfl⟩

/-- White space after a line does not make it a comment or none. -/
theorem isLineComment_append {line blank : List Char} (h : ∀ c ∈ blank, isWhitespace c = true) :
    isLineComment (line ++ blank) = isLineComment line := by
  induction line with
  | nil =>
    have hblank : trimStart blank = [] := List.dropWhile_eq_nil_iff.mpr h
    rw [List.nil_append, isLineComment, hblank]
    rfl
  | cons c line ih =>
    by_cases hc : isWhitespace c = true
    · rw [List.cons_append, isLineComment, trimStart, List.dropWhile_cons_of_pos hc]
      conv_rhs => rw [isLineComment, trimStart, List.dropWhile_cons_of_pos hc]
      exact ih
    · rw [List.cons_append, isLineComment, trimStart, List.dropWhile_cons_of_neg hc]
      conv_rhs => rw [isLineComment, trimStart, List.dropWhile_cons_of_neg hc]
      cases line with
      | cons c' line => rfl
      | nil =>
        cases blank with
        | nil => rfl
        | cons b blank =>
          have hdash : ('-' == b) = false := beq_eq_false_iff_ne.mpr fun hb =>
            absurd (h b List.mem_cons_self) (by rw [← hb]; decide)
          simp [List.isPrefixOf, hdash]

variable {State : Type} {M : Scanner State}

theorem marks_comment (h : SkipsComments M) {rest : List Char} (hrest : '\n' ∉ rest) :
    M.marks (M.step (M.step M.init '-') '-') rest = false ∧
      M.after (M.step (M.step M.init '-') '-') rest = M.step (M.step M.init '-') '-' := by
  induction rest with
  | nil => exact ⟨rfl, rfl⟩
  | cons c rest ih =>
    obtain ⟨hc, hrest⟩ := List.ne_and_not_mem_of_not_mem_cons hrest
    rw [Scanner.marks, h.comment, h.stays c hc.symm, Bool.false_or, Scanner.after, List.foldl_cons,
      h.stays c hc.symm]
    exact ih hrest

/-- Nothing is marked in a comment line. -/
theorem marks_of_isLineComment (h : SkipsComments M) {line : List Char} (hline : '\n' ∉ line)
    (hcomment : isLineComment line = true) : M.marks M.init line = false ∧
      M.marks M.init (line ++ ['\n']) = false := by
  obtain ⟨blank, rest, hblank, rfl⟩ := exists_of_isLineComment hcomment
  have hrest : '\n' ∉ rest := fun hmem => hline (List.mem_append_right blank
    (List.mem_cons_of_mem _ (List.mem_cons_of_mem _ hmem)))
  obtain ⟨hmarks, hafter⟩ := marks_comment h hrest
  have hwhole : M.marks M.init (blank ++ '-' :: '-' :: rest) = false := by
    rw [Scanner.marks_append, h.lineWise.marks_blank hblank, h.lineWise.after_blank hblank,
      Scanner.marks, Scanner.marks, h.dash, h.dashes, hmarks]
    rfl
  refine ⟨hwhole, ?_⟩
  have hend : M.after M.init (blank ++ '-' :: '-' :: rest) =
      M.step (M.step M.init '-') '-' := by
    rw [Scanner.after_append, h.lineWise.after_blank hblank]
    exact hafter
  rw [Scanner.marks_append, hwhole, hend, Scanner.marks, h.comment]
  rfl

/-- Nothing is marked in the lines that are dropped. -/
theorem marks_of_dropped (h : SkipsComments M) {ls : List (List Char)} (hls : Lines ls)
    {line : List Char} (hline : line ∈ ls) (hcomment : isLineComment line = true) :
    M.marks M.init line = false := by
  induction hls with
  | nil => cases hline
  | last other _ hother =>
    cases List.mem_singleton.mp hline
    exact (marks_of_isLineComment h hother hcomment).1
  | cons other hother _ ih =>
    rcases List.mem_cons.mp hline with rfl | hline
    · rw [isLineComment_append isWhitespace_newline] at hcomment
      exact (marks_of_isLineComment h hother hcomment).2
    · exact ih hline

theorem lines_kept (piece : List Char) : Lines (kept piece) := (lines_splitInclusive piece).filter _

/-- A scanner marks in a piece what it marks in the lines that are kept. -/
theorem marks_kept (h : SkipsComments M) (piece : List Char) :
    M.marks M.init (kept piece).flatten = M.marks M.init piece := by
  have hls := lines_splitInclusive piece
  have hfilter := h.lineWise.marks_filter hls (fun line => !isLineComment line)
    fun line hline hdropped => marks_of_dropped h hls hline (by simpa using hdropped)
  rwa [flatten_splitInclusive] at hfilter

/-! ## The statements of the code -/

theorem isLineComment_stripEnd (line : List Char) :
    isLineComment (stripEnd line) = isLineComment line := by
  rw [stripEnd]
  split_ifs with hend
  · obtain ⟨front, rfl⟩ := List.getLast?_eq_some_iff.mp hend
    rw [List.dropLast_concat, isLineComment_append isWhitespace_newline, stripReturn]
    split_ifs with hreturn
    · obtain ⟨front, rfl⟩ := List.getLast?_eq_some_iff.mp hreturn
      rw [List.dropLast_concat, isLineComment_append isWhitespace_return]
    · rfl
  · rfl

/-- A piece without its comment lines, with its line ends as line feeds. -/
theorem executable_eq (piece : List Char) :
    executable piece = unixEnds (trim (kept piece).flatten) := by
  have hlines : (lines piece).filter (fun line => !isLineComment line) =
      (kept piece).map stripEnd := by
    rw [lines, List.filter_map, kept]
    simp only [Function.comp_def, isLineComment_stripEnd]
  rw [executable, hlines, trim_intercalate_lines (lines_kept piece)]

theorem marks_executable (h : SkipsComments M)
    (hmark : ∀ q c, M.mark q c = true → isWhitespace c = false) (piece : List Char) :
    M.marks M.init (executable piece) = M.marks M.init piece := by
  rw [executable_eq, h.lineWise.marks_unixEnds, h.lineWise.marks_trim hmark, marks_kept h]

theorem splitter_mark_visible (q : ScanState) (c : Char) (h : splitter.mark q c = true) :
    isWhitespace c = false := by
  simp only [splitter, Bool.and_eq_true, beq_iff_eq] at h
  rw [h.2]
  decide

theorem reader_mark_visible (p : Place) (c : Char) (h : reader.mark p c = true) :
    isWhitespace c = false := by
  simp only [reader, Bool.and_eq_true, beq_iff_eq] at h
  rw [h.1.1]
  decide

/-! ## Comment lines do not matter -/

theorem kept_append {front text : List Char} (h : ∀ c ∈ front.getLast?, c = '\n') :
    kept (front ++ text) = kept front ++ kept text := by
  rw [kept, splitInclusive_append h, List.filter_append]
  rfl

theorem kept_of_isLineComment {line : List Char} (hline : '\n' ∉ line)
    (hcomment : isLineComment line = true) : kept line = [] ∧ kept (line ++ ['\n']) = [] := by
  have hne : line ≠ [] := by
    rintro rfl
    cases hcomment
  have hended : isLineComment (line ++ ['\n']) = true := by
    rwa [isLineComment_append isWhitespace_newline]
  constructor
  · rw [kept, splitInclusive_of_notMem hne hline, List.filter_singleton, hcomment]
    rfl
  · rw [kept, splitInclusive_line hline, splitInclusive, List.filter_singleton, hended]
    rfl

/-- The statements of some pieces. -/
def executables (pieces : List (List Char)) : List (List Char) :=
  (pieces.map executable).filter (· ≠ [])

theorem executables_append (x y : List (List Char)) :
    executables (x ++ y) = executables x ++ executables y := by
  rw [executables, List.map_append, List.filter_append]
  rfl

theorem executables_of_kept {x y : List Char} (h : kept x = kept y) (rest : List (List Char)) :
    executables (x :: rest) = executables (y :: rest) := by
  rw [executables, List.map_cons, executable_eq, h, ← executable_eq, ← List.map_cons]
  rfl

/-- An empty piece is no statement. -/
theorem executables_ite (piece : List Char) :
    executables (if piece = [] then [] else [piece]) = executables [piece] := by
  split_ifs with hpiece
  · rw [hpiece]
    rfl
  · rfl

/-- What is kept of the first piece is what matters of it. -/
theorem executables_pieces {x y : List Char} (text : List Char) (q : ScanState)
    (h : kept (x ++ text) = kept (y ++ text))
    (hfirst : ∀ first, kept (x ++ first) = kept (y ++ first)) :
    executables (splitter.pieces q x text) = executables (splitter.pieces q y text) := by
  rcases splitter.pieces_cases q text with hone | ⟨first, rest, hmore⟩
  · rw [hone, hone, executables_ite, executables_ite]
    exact executables_of_kept h []
  · rw [hmore, hmore]
    exact executables_of_kept (hfirst first) rest

/-- A comment line between two lines, or at the end of the file, does not matter. -/
theorem executableStatements_insert {front line : List Char} (text : List Char)
    (hfront : ∀ c ∈ front.getLast?, c = '\n') (hline : '\n' ∉ line)
    (hcomment : isLineComment line = true) :
    executableStatements (front ++ (line ++ '\n' :: text)) = executableStatements (front ++ text) ∧
      executableStatements (front ++ line) = executableStatements front := by
  obtain ⟨done, last, hlast, hpieces⟩ := splitter.exists_pieces_append front splitter.init []
  have hstart : splitter.after splitter.init front = splitter.init := by
    cases hend : front.getLast? with
    | none => rw [List.getLast?_eq_none_iff.mp hend]; rfl
    | some c =>
      obtain ⟨front', rfl⟩ := List.getLast?_eq_some_iff.mp hend
      rw [hfront c hend]
      exact splitter_lineWise.after_line
  have hlast' : ∀ c ∈ last.getLast?, c = '\n' := fun c hc => by
    rcases hlast with rfl | ⟨first, rfl⟩
    · exact hfront c hc
    · exact hfront c (List.mem_getLast?_append_of_mem_getLast? hc)
  obtain ⟨hmarks, hmarks'⟩ := marks_of_isLineComment splitter_skipsComments hline hcomment
  obtain ⟨hkept, hkept'⟩ := kept_of_isLineComment hline hcomment
  have hsplit (text : List Char) : executableStatements (front ++ text) =
      executables done ++ executables (splitter.pieces splitter.init last text) := by
    rw [executableStatements, splitStatements, hpieces, hstart]
    exact executables_append _ _
  constructor
  · have hended : ∀ c ∈ (last ++ (line ++ ['\n'])).getLast?, c = '\n' := fun c hc => by
      rw [← List.append_assoc, List.getLast?_concat] at hc
      exact (Option.some.inj hc).symm
    have hsame (rest : List Char) :
        kept (last ++ (line ++ ['\n']) ++ rest) = kept (last ++ rest) := by
      rw [kept_append hended, kept_append hlast', hkept', List.append_nil, kept_append hlast']
    rw [hsplit, hsplit, ← List.singleton_append, ← List.append_assoc line,
      Scanner.pieces_append hmarks', splitter_lineWise.after_line]
    exact congrArg (executables done ++ ·) (executables_pieces text _ (hsame text) hsame)
  · have hempty := hsplit []
    rw [List.append_nil] at hempty
    have hpiece := Scanner.pieces_append hmarks last []
    rw [List.append_nil] at hpiece
    rw [hsplit, hempty, hpiece, Scanner.pieces, Scanner.pieces, executables_ite, executables_ite]
    refine congrArg (executables done ++ ·) (executables_of_kept ?_ [])
    rw [kept_append hlast', hkept, List.append_nil]

/-! ## Where the code finds the statements -/

/-- Where the reader sees a comment, or one half begun, so does the splitter. -/
structure Sees (q : ScanState) (p : Place) : Prop where
  comment : p = .comment → q.inLineComment = true
  dash : p = .dash → q.inLineComment = true ∨ q.prevWasDash = true

theorem Sees.init : Sees splitter.init reader.init := ⟨nofun, nofun⟩

theorem Sees.step {q : ScanState} {p : Place} (h : Sees q p) (c : Char) :
    Sees (splitter.step q c) (p.next c) := by
  by_cases hline : c = '\n'
  · rw [hline, next_newline]
    exact ⟨nofun, nofun⟩
  -- a comment stays one, and goes on from a dash that the splitter has seen too
  have hstays : q.inLineComment = true → (splitter.step q c).inLineComment = true := fun hq => by
    simp [splitter, hq, hline]
  have hdash (p : Place) (hp : p = .comment ∨ p = .dash) (h : p = .comment → c = '-' ∧
      (q.inLineComment = true ∨ q.prevWasDash = true)) (hc : p = .dash → c = '-') :
      Sees (splitter.step q c) p := by
    cases hq : q.inLineComment with
    | true => exact ⟨fun _ => hstays hq, fun _ => .inl (hstays hq)⟩
    | false =>
      refine ⟨fun hcomment => ?_, fun hp => ?_⟩
      · obtain ⟨rfl, hprev⟩ := h hcomment
        simp [splitter, hq, (hprev.resolve_left (by rw [hq]; exact Bool.false_ne_true))]
      · cases hprev : q.prevWasDash <;> simp [splitter, hq, hprev, hc hp]
  cases p with
  | comment =>
    have hnext : Place.next .comment c = .comment := if_neg hline
    rw [hnext]
    exact ⟨fun _ => hstays (h.comment rfl), nofun⟩
  | literal =>
    rw [Place.next, if_neg hline]
    split_ifs <;> exact ⟨nofun, nofun⟩
  | code | slash =>
    rw [Place.next, if_neg hline]
    split_ifs with hc
    · contradiction
    · exact hdash .dash (.inr rfl) nofun fun _ => hc
    all_goals exact ⟨nofun, nofun⟩
  | dash =>
    simp only [Place.next, if_neg hline, if_pos]
    split_ifs with hc
    · exact hdash .comment (.inl rfl) (fun _ => ⟨hc, h.dash rfl⟩) nofun
    all_goals exact ⟨nofun, nofun⟩

/-- In a plain text the reader and the splitter end a statement at the same characters, but where
the splitter takes a literal for a comment. -/
theorem Sees.mark {q : ScanState} {p : Place} (h : Sees q p) {c : Char}
    (hplain : unplain.mark p c = false) :
    splitter.mark q c = (reader.mark p c && !q.inLineComment) := by
  by_cases hend : c = ';'
  swap
  · have hnot : (c == ';') = false := beq_eq_false_iff_ne.mpr hend
    simp [splitter, reader, hnot]
  subst hend
  cases p with
  | literal => cases hplain
  | comment =>
    have hq := h.comment rfl
    simp [splitter, hq]
  | code | dash | slash => simp [splitter, reader]

/-- `NoHiddenEnd` from any state on. -/
def NoHiddenFrom (q : ScanState) (p : Place) (text : List Char) : Prop :=
  ∀ front back, text = front ++ ';' :: back → reader.mark (reader.after p front) ';' = true →
    (splitter.after q front).inLineComment = false

theorem NoHiddenFrom.tail {q : ScanState} {p : Place} {c : Char} {text : List Char}
    (h : NoHiddenFrom q p (c :: text)) : NoHiddenFrom (splitter.step q c) (p.next c) text :=
  fun front back htext => h (c :: front) back (congrArg (c :: ·) htext)

/-- Without a hidden end the pieces are the reader's. -/
theorem pieces_eq {q : ScanState} {p : Place} (h : Sees q p) {text : List Char}
    (hplain : unplain.marks p text = false) (hidden : NoHiddenFrom q p text) (piece : List Char) :
    splitter.pieces q piece text = reader.pieces p piece text := by
  induction text generalizing q p piece with
  | nil => rfl
  | cons c text ih =>
    rw [Scanner.marks, Bool.or_eq_false_iff] at hplain
    have hnext := ih (h.step c) hplain.2 hidden.tail
    have hmark := h.mark hplain.1
    rw [Scanner.pieces, Scanner.pieces, hmark]
    cases hreader : reader.mark p c with
    | false =>
      rw [Bool.false_and, if_neg Bool.false_ne_true, if_neg Bool.false_ne_true]
      exact hnext _
    | true =>
      have hend : c = ';' := by
        simp only [reader, Bool.and_eq_true, beq_iff_eq] at hreader
        exact hreader.1.1
      subst hend
      have hcode : q.inLineComment = false := hidden [] text rfl hreader
      rw [hcode, Bool.not_false, Bool.and_true, if_pos rfl, if_pos rfl, hnext []]
      rfl

/-- Where the reader ends no statement within a piece of the splitter there is no hidden end. -/
theorem noHiddenFrom_of_unmarked {q : ScanState} (piece : List Char) {text : List Char}
    (h : Sees q (reader.after reader.init piece))
    (hplain : unplain.marks (reader.after reader.init piece) text = false)
    (hunmarked : ∀ part ∈ splitter.pieces q piece text, reader.marks reader.init part = false) :
    NoHiddenFrom q (reader.after reader.init piece) text := by
  induction text generalizing q piece with
  | nil =>
    intro front back htext
    exact absurd htext.symm (List.append_ne_nil_of_right_ne_nil front (List.cons_ne_nil ';' back))
  | cons c text ih =>
    rw [Scanner.marks, Bool.or_eq_false_iff] at hplain
    have hmark := h.mark hplain.1
    have hconcat : reader.after reader.init (piece ++ [c]) =
        (reader.after reader.init piece).next c := Scanner.after_append
    rw [Scanner.pieces] at hunmarked
    split at hunmarked
    · rename_i hcut
      rw [hmark, Bool.and_eq_true] at hcut
      obtain ⟨hreader, hcode⟩ := hcut
      have hinit : (reader.after reader.init piece).next c = reader.init :=
        reader_resets _ c hreader
      have hnext := h.step c
      rw [hinit] at hnext
      have hplain' := hplain.2
      rw [show unplain.step (reader.after reader.init piece) c = reader.init from hinit] at hplain'
      have htail := ih [] hnext hplain' fun part hpart =>
        hunmarked part (List.mem_cons_of_mem piece hpart)
      intro front back htext hreads
      cases front with
      | nil => exact Bool.not_eq_true' _ ▸ hcode
      | cons c' front =>
        obtain ⟨rfl, htail'⟩ := List.cons.inj htext
        refine htail front back htail' ?_
        rw [← hreads]
        exact congrArg (reader.mark · ';') (congrArg (reader.after · front) hinit.symm)
    · rename_i hcut
      have htail := ih (piece ++ [c]) (by rw [hconcat]; exact h.step c)
        (by rw [hconcat]; exact hplain.2) hunmarked
      rw [hconcat] at htail
      intro front back htext hreads
      cases front with
      | cons c' front =>
        obtain ⟨rfl, htail'⟩ := List.cons.inj htext
        exact htail front back htail' hreads
      | nil =>
        obtain ⟨rfl, rfl⟩ := List.cons.inj htext
        -- the piece goes on past a character at which the reader ends a statement
        obtain ⟨rest, more, hpieces⟩ : ∃ rest more, splitter.pieces (splitter.step q ';')
            (piece ++ [';']) text = (piece ++ [';'] ++ rest) :: more := by
          rcases splitter.pieces_cases (splitter.step q ';') text with hone | ⟨first, rest, hmore⟩
          · exact ⟨text, [], by rw [hone, if_neg (by simp)]⟩
          · exact ⟨first, rest, hmore _⟩
        have hpart := hunmarked _ (by rw [hpieces]; exact List.mem_cons_self)
        rw [Scanner.marks_append, Scanner.marks_append, Bool.or_eq_false_iff,
          Bool.or_eq_false_iff] at hpart
        have hnone : reader.mark (reader.after reader.init piece) ';' = false :=
          (Bool.or_eq_false_iff.mp hpart.1.2).1
        cases hnone.symm.trans hreads

/-- Without a hidden end the code finds the statements, with their line ends as line feeds. -/
theorem executableStatements_of_noHiddenEnd {sql : List Char}
    (hplain : unplain.marks unplain.init sql = false) (h : NoHiddenEnd sql) :
    executableStatements sql = (statementsOf sql).map unixEnds := by
  rw [executableStatements, splitStatements, pieces_eq Sees.init hplain h [], statementsOf]
  induction reader.pieces reader.init [] sql with
  | nil => rfl
  | cons piece pieces ih =>
    by_cases hempty : trim (kept piece).flatten = []
    · have hnone : executable piece = [] := by rw [executable_eq, hempty, unixEnds]
      rw [List.map_cons, List.map_cons, List.filter_cons_of_neg (by simpa using hnone),
        List.filter_cons_of_neg (by simpa using hempty)]
      exact ih
    · have hsome : executable piece ≠ [] := by
        rwa [executable_eq, Ne, unixEnds_eq_nil_iff]
      rw [List.map_cons, List.map_cons, List.filter_cons_of_pos (by simpa using hsome),
        List.filter_cons_of_pos (by simpa using hempty), List.map_cons, executable_eq]
      exact congrArg (_ :: ·) ih

/-- The statements as they stand have no end within them. -/
theorem unmarked_of_mem_statementsOf {sql s : List Char} (hs : s ∈ statementsOf sql) :
    reader.marks reader.init s = false := by
  obtain ⟨piece, hpiece, rfl⟩ := List.mem_map.mp (List.mem_of_mem_filter hs)
  rw [reader_lineWise.marks_trim reader_mark_visible, marks_kept reader_skipsComments]
  exact Scanner.pieces_unmarked reader_resets [] rfl hpiece

theorem map_eq_self_iff {α : Type} {f : α → α} {l : List α} :
    l.map f = l ↔ ∀ a ∈ l, f a = a := by
  have hid := List.map_inj_left (l := l) (f := f) (g := id)
  rwa [List.map_id] at hid

/-- The code finds the statements as they stand exactly when no end is hidden and none of them is
written with carriage returns at its line ends. -/
theorem executableStatements_eq_iff {sql : List Char} (hsql : Plain sql) :
    executableStatements sql = statementsOf sql ↔
      NoHiddenEnd sql ∧ ∀ s ∈ statementsOf sql, ¬ ['\r', '\n'] <:+: s := by
  have hplain : unplain.marks unplain.init sql = false := by
    rw [Plain, Scanner.marks_append, Bool.or_eq_false_iff] at hsql
    exact hsql.1
  constructor
  · intro h
    have hunmarked : ∀ part ∈ splitStatements sql, reader.marks reader.init part = false := by
      intro part hpart
      rw [← marks_executable reader_skipsComments reader_mark_visible]
      by_cases hempty : executable part = []
      · rw [hempty]
        rfl
      · have hmem : executable part ∈ statementsOf sql := by
          rw [← h]
          exact List.mem_filter.mpr ⟨List.mem_map_of_mem hpart, decide_eq_true hempty⟩
        exact unmarked_of_mem_statementsOf hmem
    have hidden : NoHiddenEnd sql :=
      noHiddenFrom_of_unmarked [] Sees.init hplain hunmarked
    refine ⟨hidden, fun s hs => unixEnds_eq_self_iff.mp ?_⟩
    rw [executableStatements_of_noHiddenEnd hplain hidden] at h
    exact map_eq_self_iff.mp h s hs
  · rintro ⟨hidden, hends⟩
    rw [executableStatements_of_noHiddenEnd hplain hidden]
    exact map_eq_self_iff.mpr fun s hs => unixEnds_eq_self_iff.mpr (hends s hs)

end Migrations
