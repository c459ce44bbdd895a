import Impresspress.Multipart.FormData

/-!
# Names read back

The parser cuts the disposition of a part at every `;`, also at those within a name. A name that
holds one ends there, and what stands behind it in the name of a field may be read as a file name.
Every other name is read as it stands in the header.

## Main definitions

* `Multipart.received`: what is read of a name.
* `Multipart.injected`: the file name that is read from behind a `;` in the name of a field.

## Main results

* `Multipart.multipartBoundary_contentType`: the boundary of a request is read.
* `Multipart.dispositionParam_filename`: which file name is read from the headers of a part.
-/

namespace Multipart

open Percent (utf8)
open Text

/-! ## The boundary -/

theorem semicolon_notMem {b : Boundary} : ';' ∉ b.chars := fun hmem =>
  absurd (b.plain _ hmem) (by decide)

theorem doubleQuote_notMem {b : Boundary} : '"' ∉ b.chars := fun hmem =>
  absurd (b.plain _ hmem) (by decide)

theorem semicolon_notMem_written {b : Boundary} : ';' ∉ b.written := by
  intro hmem
  unfold Boundary.written at hmem
  split_ifs at hmem
  · rcases List.mem_cons.mp hmem with h | h
    · exact absurd h (by decide)
    · rcases List.mem_append.mp h with h | h
      · exact semicolon_notMem h
      · exact absurd h (by decide)
  · exact semicolon_notMem hmem

theorem isWhitespace_of_visible {c : Char} (h : 33 ≤ c.toNat) (h' : c.toNat < 127) :
    isWhitespace c = false := by
  simp only [isWhitespace, Bool.or_eq_false_iff, Bool.and_eq_false_iff, beq_eq_false_iff_ne,
    decide_eq_false_iff_not]
  omega

theorem visible_of_isBoundaryChar {c : Char} (hc : isBoundaryChar c = true) (hne : c ≠ ' ') :
    33 ≤ c.toNat ∧ c.toNat < 127 := by
  rcases Bool.or_eq_true_iff.mp hc with hc | hc
  · unfold Char.isAlphanum Char.isAlpha Char.isUpper Char.isLower Char.isDigit at hc
    simp only [Bool.or_eq_true, Bool.and_eq_true, decide_eq_true_eq, ge_iff_le,
      UInt32.le_iff_toNat_le] at hc
    have hval : c.toNat = c.val.toNat := rfl
    have hbounds : 'A'.val.toNat = 65 ∧ 'Z'.val.toNat = 90 ∧ 'a'.val.toNat = 97 ∧
      'z'.val.toNat = 122 ∧ '0'.val.toNat = 48 ∧ '9'.val.toNat = 57 := by decide
    omega
  · have hvisible : (['\'', '(', ')', '+', '_', ',', '-', '.', '/', ':', '=', '?', ' '].all fun c =>
        c == ' ' || decide (33 ≤ c.toNat ∧ c.toNat < 127)) = true := by decide
    have hthis := List.all_eq_true.mp hvisible c (List.contains_iff_mem.mp hc)
    rw [Bool.or_eq_true, beq_iff_eq, decide_eq_true_iff] at hthis
    exact hthis.resolve_left hne

variable (b : Boundary)

theorem written_eq_quoted (h : b.quoted = true) : b.written = '"' :: (b.chars ++ ['"']) := if_pos h

theorem written_eq_chars (h : ¬ b.quoted = true) : b.written = b.chars := if_neg h

theorem written_trimmed : Trimmed b.written := by
  by_cases hquoted : b.quoted = true
  · rw [written_eq_quoted b hquoted]
    constructor
    · intro c hc
      obtain rfl : '"' = c := Option.some.inj hc
      rfl
    · intro c hc
      rw [List.getLast?_cons, List.getLast?_concat] at hc
      obtain rfl : '"' = c := Option.some.inj hc
      rfl
  · rw [written_eq_chars b hquoted]
    have hvisible : ∀ c ∈ b.chars, isWhitespace c = false := fun c hc => by
      obtain ⟨hge, hlt⟩ := visible_of_isBoundaryChar (b.plain c hc) fun hspace =>
        hquoted (b.spaces (hspace ▸ hc))
      exact isWhitespace_of_visible hge hlt
    exact ⟨fun c hc => hvisible c (List.mem_of_mem_head? hc),
      fun c hc => hvisible c (List.mem_of_getLast? hc)⟩

theorem unquote_written : unquote b.written = b.chars := by
  by_cases hquoted : b.quoted = true
  · rw [written_eq_quoted b hquoted, unquote_quoted]
  · rw [written_eq_chars b hquoted, unquote_of_notMem doubleQuote_notMem]

/-- A boundary holds no control characters. -/
theorem not_any_isAsciiControl : (utf8 b.chars).any isAsciiControl = false := by
  refine List.any_eq_false.mpr fun byte hbyte hcontrol => ?_
  have hcontrol : byte.toNat < 32 ∨ byte.toNat = 127 := by
    rcases Bool.or_eq_true_iff.mp hcontrol with h | h
    · exact .inl (UInt8.lt_iff_toNat_lt.mp (of_decide_eq_true h))
    · exact .inr (congrArg UInt8.toNat (beq_iff_eq.mp h))
  have hchar := b.plain _ (Utf8.mem_of_mem_utf8 hbyte (by omega))
  have hcode : (Char.ofNat byte.toNat).toNat = byte.toNat := by
    rw [Char.ofNat, dif_pos (.inl (by omega))]
    exact UInt32.toNat_ofNatLT
  by_cases hspace : Char.ofNat byte.toNat = ' '
  · have : byte.toNat = 32 := hcode.symm.trans (congrArg Char.toNat hspace)
    omega
  · have := visible_of_isBoundaryChar hchar hspace
    omega

theorem boundaryOf_param {param name value : List Char} (params : List (List Char))
    (hsplit : splitOnce '=' (trim param) = some (name, value))
    (hname : eqIgnoreAsciiCase (trim name) "boundary".toList = true)
    (hempty : (unquote (trim value)).isEmpty = false)
    (hcontrol : (utf8 (unquote (trim value))).any isAsciiControl = false) :
    boundaryOf (param :: params) = some (unquote (trim value)) := by
  rw [boundaryOf, hsplit]
  dsimp only
  rw [if_pos hname, hempty, hcontrol]
  rfl

/-- The boundary of a request is read from its content type. -/
theorem multipartBoundary_contentType : multipartBoundary b.contentType = some b.chars := by
  have hparam : ';' ∉ " boundary".toList ++ '=' :: b.written := by
    intro hmem
    rcases List.mem_append.mp hmem with h | h
    · exact absurd h (by decide)
    · rcases List.mem_cons.mp h with h | h
      · exact absurd h (by decide)
      · exact semicolon_notMem_written h
  have hmime : ';' ∉ "multipart/form-data".toList := by decide
  have hsplit : b.contentType.splitOn ';' =
      ["multipart/form-data".toList, " boundary".toList ++ '=' :: b.written] := by
    refine (List.splitOn_append_cons_self_of_not_mem hmime _).trans ?_
    rw [List.splitOn_eq_singleton hparam]
  have htrimmed : Trimmed ("boundary".toList ++ '=' :: b.written) := by
    refine ⟨fun c hc => ?_, fun c hc => ?_⟩
    · obtain rfl : 'b' = c := Option.some.inj hc
      rfl
    · rw [List.getLast?_append, List.getLast?_cons] at hc
      cases hlast : b.written.getLast? with
      | none =>
        rw [hlast] at hc
        obtain rfl : '=' = c := Option.some.inj hc
        rfl
      | some c' =>
        rw [hlast] at hc
        obtain rfl : c' = c := Option.some.inj hc
        exact (written_trimmed b).last c' hlast
  have hvalue : unquote (trim b.written) = b.chars := by
    rw [trim_of_trimmed (written_trimmed b), unquote_written]
  have hequals : '=' ∉ "boundary".toList := by decide
  have honce : splitOnce '=' (trim (" boundary".toList ++ '=' :: b.written)) =
      some ("boundary".toList, b.written) := by
    refine (congrArg (splitOnce '=') (trim_space _ htrimmed)).trans ?_
    exact splitOnce_append hequals
  have hempty : (unquote (trim b.written)).isEmpty = false := by
    rw [hvalue]
    exact List.isEmpty_eq_false_iff.mpr b.nonempty
  have hcontrol : (utf8 (unquote (trim b.written))).any isAsciiControl = false := by
    rw [hvalue]
    exact not_any_isAsciiControl b
  have hread := boundaryOf_param [] honce (by decide) hempty hcontrol
  have hmime : eqIgnoreAsciiCase (trim "multipart/form-data".toList)
      "multipart/form-data".toList = true := by decide
  unfold multipartBoundary
  simp only [hsplit, hmime, ↓reduceIte]
  rw [hread, hvalue]

/-! ## Names -/

/-- What is read of a name: what stands before the first `;` of what is sent. -/
def received (name : List Char) : List Char :=
  unquote (trim ('"' :: ((escape name ++ ['"']).splitOn ';').headD []))

/-- The file name that is read from behind a `;` in the name of a field. -/
def injected (name : List Char) : Option (List Char) :=
  paramOf "filename".toList ((escape name ++ ['"']).splitOn ';').tail

theorem paramOf_append (param : List Char) (tokens tokens' : List (List Char)) :
    paramOf param (tokens ++ tokens') = (paramOf param tokens).or (paramOf param tokens') := by
  induction tokens with
  | nil => rfl
  | cons token tokens ih =>
    rw [List.cons_append, paramOf, paramOf]
    cases splitOnce '=' token with
    | none => exact ih
    | some halves =>
      dsimp only
      split_ifs
      · rfl
      · exact ih

theorem splitOn_append_semicolon (front back : List Char) :
    (front ++ ';' :: back).splitOn ';' = front.splitOn ';' ++ back.splitOn ';' :=
  List.splitOn_append_cons_self front back

/-- A parameter that is looked for is read up to the first `;` of its value. -/
theorem paramOf_parameter {param key : List Char} (hequals : '=' ∉ key) (hsemicolon : ';' ∉ key)
    (value : List Char) : paramOf param ((key ++ '=' :: quote value).splitOn ';') =
      if eqIgnoreAsciiCase (trim key) param then some (received value)
      else paramOf param ((escape value ++ ['"']).splitOn ';').tail := by
  obtain ⟨first, pieces, hpieces⟩ :=
    List.exists_cons_of_ne_nil (List.splitOn_ne_nil ';' (escape value ++ ['"']))
  have hfront : ';' ∉ key ++ ['=', '"'] := by
    intro hmem
    rcases List.mem_append.mp hmem with h | h
    · exact hsemicolon h
    · exact absurd h (by decide)
  have hsplit : (key ++ '=' :: quote value).splitOn ';' =
      (key ++ '=' :: '"' :: first) :: pieces := by
    have hwhole : key ++ '=' :: quote value = (key ++ ['=', '"']) ++ (escape value ++ ['"']) := by
      rw [quote, List.append_assoc]
      rfl
    rw [hwhole, splitOn_front hfront hpieces, List.append_assoc]
    rfl
  rw [hsplit, paramOf, splitOnce_append hequals, received, hpieces]
  rfl

variable {p : FormPart}

/-- A parameter is read from its own value or from behind a `;` in one that stands before it. -/
theorem dispositionParam_disposition (param : List Char) :
    dispositionParam p.disposition param =
      (paramOf param ((" name".toList ++ '=' :: quote p.name).splitOn ';')).or
        (p.filename.bind fun filename =>
          paramOf param ((" filename".toList ++ '=' :: quote filename).splitOn ';')) := by
  have hsemicolon : ';' ∉ "form-data".toList := by decide
  have hequals : '=' ∉ "form-data".toList := by decide
  have hfirst : paramOf param ["form-data".toList] = none := by
    rw [paramOf, splitOnce_of_notMem hequals]
    rfl
  have hsplit (rest : List Char) : dispositionParam ("form-data".toList ++ ';' :: rest) param =
      paramOf param (rest.splitOn ';') := by
    unfold dispositionParam
    rw [splitOn_append_semicolon, paramOf_append, List.splitOn_eq_singleton hsemicolon, hfirst,
      Option.none_or]
  unfold FormPart.disposition parameter
  cases p.filename with
  | none =>
    rw [Option.map_none, Option.getD_none, List.append_nil, Option.bind_none, Option.or_none]
    exact hsplit _
  | some filename =>
    rw [Option.map_some, Option.getD_some, Option.bind_some]
    refine (hsplit _).trans ?_
    refine (congrArg (paramOf param) (splitOn_append_semicolon _ _)).trans ?_
    exact paramOf_append param _ _

theorem dispositionParam_filename :
    dispositionParam p.disposition "filename".toList =
      (injected p.name).or (p.filename.map received) := by
  have hname : paramOf "filename".toList ((" name".toList ++ '=' :: quote p.name).splitOn ';') =
      injected p.name :=
    (paramOf_parameter (by decide) (by decide) _).trans (if_neg (by decide))
  have hfilename (filename : List Char) : paramOf "filename".toList
      ((" filename".toList ++ '=' :: quote filename).splitOn ';') = some (received filename) :=
    (paramOf_parameter (by decide) (by decide) _).trans (if_pos (by decide))
  rw [dispositionParam_disposition, hname]
  simp only [hfilename]
  cases p.filename <;> rfl

theorem dispositionParam_name :
    dispositionParam p.disposition "name".toList = some (received p.name) := by
  have hname : paramOf "name".toList ((" name".toList ++ '=' :: quote p.name).splitOn ';') =
      some (received p.name) :=
    (paramOf_parameter (by decide) (by decide) _).trans (if_pos (by decide))
  rw [dispositionParam_disposition, hname, Option.some_or]

variable {name : List Char}

/-- A name without a `;` is read as it is sent. -/
theorem received_of_notMem (h : ';' ∉ name) : received name = escape name := by
  have hwhole : ';' ∉ escape name ++ ['"'] := by
    intro hmem
    rcases List.mem_append.mp hmem with h' | h'
    · exact h ((semicolon_mem_escape name).mp h')
    · exact absurd h' (by decide)
  have htrimmed : Trimmed ('"' :: (escape name ++ ['"'])) := by
    constructor
    · intro c hc
      obtain rfl : '"' = c := Option.some.inj hc
      rfl
    · intro c hc
      rw [List.getLast?_cons, List.getLast?_concat] at hc
      obtain rfl : '"' = c := Option.some.inj hc
      rfl
  rw [received, List.splitOn_eq_singleton hwhole, List.headD_cons, trim_of_trimmed htrimmed,
    unquote_quoted]

/-- What only opens a quote keeps it. -/
theorem exists_unquote_trim_open {text : List Char} (h : '"' ∉ text) :
    ∃ rest, unquote (trim ('"' :: text)) = '"' :: rest ∧ rest <+: text := by
  obtain ⟨front, back, hfront, hback, htext⟩ := exists_trim ('"' :: text)
  have hquote : isWhitespace '"' = false := rfl
  cases front with
  | cons c front =>
    obtain ⟨rfl, -⟩ := List.cons.inj htext
    exact absurd (hfront _ List.mem_cons_self) (by rw [hquote]; exact Bool.false_ne_true)
  | nil =>
    cases htrim : trim ('"' :: text) with
    | nil =>
      rw [htrim, List.nil_append, List.nil_append] at htext
      exact absurd (hback '"' (htext ▸ List.mem_cons_self))
        (by rw [hquote]; exact Bool.false_ne_true)
    | cons c rest =>
      rw [htrim] at htext
      obtain ⟨rfl, rfl⟩ := List.cons.inj htext
      exact ⟨rest, unquote_open fun hmem => h (List.mem_append_left _ hmem),
        List.prefix_append _ _⟩

/-- A name with a `;` is read as an open quote and what stands before it. -/
theorem received_of_mem (h : ';' ∈ name) : '"' ∈ received name ∧ ';' ∉ received name := by
  obtain ⟨front, back, hescape, hfront⟩ :=
    List.eq_append_cons_of_mem ((semicolon_mem_escape name).mpr h)
  have hquote : '"' ∉ front := fun hmem => notMem_escape name (.inl rfl)
    (hescape ▸ List.mem_append_left _ hmem)
  obtain ⟨rest, hrest, hfirst⟩ := exists_unquote_trim_open hquote
  have hreceived : received name = '"' :: rest := by
    rw [received, hescape, List.append_assoc, List.cons_append,
      List.splitOn_append_cons_self_of_not_mem hfront, List.headD_cons, hrest]
  rw [hreceived]
  refine ⟨List.mem_cons_self, fun hmem => ?_⟩
  rcases List.mem_cons.mp hmem with heq | hmem
  · exact absurd heq (by decide)
  · exact hfront (hfirst.subset hmem)

theorem escape_eq_of_plain (h : ∀ c ∈ name, c ≠ '"' ∧ c ≠ '\r' ∧ c ≠ '\n') : escape name = name := by
  induction name with
  | nil => rfl
  | cons c name ih =>
    obtain ⟨⟨hquote, hreturn, hfeed⟩, hname⟩ := List.forall_mem_cons.mp h
    rw [escape, List.flatMap_cons, if_neg hquote, if_neg hreturn, if_neg hfeed]
    exact congrArg (c :: ·) (ih hname)

/-- A name that is sent with nothing percent-encoded is sent as it is. -/
theorem escape_eq_of_notMem (h : '%' ∉ escape name) : escape name = name := by
  refine escape_eq_of_plain fun c hc => ⟨?_, ?_, ?_⟩ <;>
  · rintro rfl
    exact h (List.mem_flatMap.mpr ⟨_, hc, by decide⟩)

/-- The field called `file` is recognized. -/
theorem received_eq_file : received name = "file".toList ↔ name = "file".toList := by
  constructor
  · intro heq
    by_cases hmem : ';' ∈ name
    · exact absurd (heq ▸ (received_of_mem hmem).1) (by decide)
    · rw [received_of_notMem hmem] at heq
      have hpercent : '%' ∉ escape name := by
        rw [heq]
        decide
      rw [← escape_eq_of_notMem hpercent, heq]
  · rintro rfl
    decide

end Multipart
