import Impresspress.Multipart.ReadBack

/-!
# The file of a form

The file that is taken out of the body of a form is the one that was put in, as long as the parser
reads the names of the form as they are meant. No body makes the parser panic, and a file that
nothing closes is not taken out.

## Main definitions

* `Multipart.fileAmong`: the file among some parts, by what their file names are taken to be.
* `Multipart.Form`, `Multipart.CutForm`: a form, and one whose end is missing.
* `Multipart.Readable`: the names of a form are read as they are meant.

## Main results

* `Multipart.extract_ok`: the parser does not panic.
* `Multipart.extract_parts`: what is taken out of the body of a form.
* `Multipart.fileAmong_eq_iff`: when this is the file of the form.
-/

namespace Multipart

open Percent (utf8)
open Text

/-! ## Slices in bounds -/

variable {body delimiter part : List UInt8}

theorem skipPadding_ok {stop : ℕ} (hstop : stop ≤ body.length) (fuel : ℕ) {cursor : ℕ}
    (hcursor : cursor ≤ stop) : ∃ cursor', skipPadding body stop fuel cursor = .ok cursor' ∧
      cursor' ≤ stop := by
  induction fuel generalizing cursor with
  | zero => exact ⟨cursor, rfl, hcursor⟩
  | succ fuel ih =>
    rw [skipPadding]
    split_ifs with hlt
    · have hbyte : byteAt body cursor = .ok body[cursor] := by
        rw [byteAt, List.getElem?_eq_getElem (by omega)]
      rw [hbyte]
      dsimp only [bind, Except.bind]
      split_ifs
      · exact ih hlt
      · exact ⟨cursor, rfl, hcursor⟩
    · exact ⟨cursor, rfl, hcursor⟩

theorem skipPadding_of_le {stop : ℕ} (fuel : ℕ) {cursor : ℕ} (hcursor : stop ≤ cursor) :
    skipPadding body stop fuel cursor = .ok cursor := by
  cases fuel with
  | zero => rfl
  | succ fuel => exact if_neg (Nat.not_lt.mpr hcursor)

theorem between_ok {after stop : ℕ} (hafter : after ≤ body.length) (hstop : stop ≤ body.length) :
    ∃ r, between body after stop = .ok r := by
  have hskip : ∃ cursor, skipPadding body stop (stop - after) after = .ok cursor := by
    rcases le_total after stop with h | h
    · obtain ⟨cursor, heq, -⟩ := skipPadding_ok hstop (stop - after) h
      exact ⟨cursor, heq⟩
    · exact ⟨after, skipPadding_of_le _ h⟩
  obtain ⟨cursor, hskip⟩ := hskip
  simp only [between, slice_eq_ok hafter le_rfl, hskip, bind, Except.bind, pure, Except.pure]
  split_ifs with hclosing hover hshort
  · exact ⟨_, rfl⟩
  · exact ⟨_, rfl⟩
  · rw [slice_eq_ok (Nat.not_lt.mp hover) hstop]
    dsimp only
    split_ifs <;> exact ⟨_, rfl⟩
  · have hroom : cursor + 2 ≤ stop - 2 := by
      rw [Bool.or_eq_true, decide_eq_true_iff, decide_eq_true_iff] at hshort
      omega
    rw [slice_eq_ok (Nat.not_lt.mp hover) hstop, slice_eq_ok hroom (by omega)]
    dsimp only
    split_ifs <;> exact ⟨_, rfl⟩

theorem splitPart_ok (part : List UInt8) : ∃ r, splitPart part = .ok r := by
  unfold splitPart
  split_ifs
  · exact ⟨_, rfl⟩
  · cases hfind : find part (crlf ++ crlf) 0 with
    | none => exact ⟨_, rfl⟩
    | some headersEnd =>
      obtain ⟨-, hfound, -⟩ := (find_eq_some_iff (List.cons_ne_nil _ _)).mp hfind
      have hlength : 4 ≤ (part.drop headersEnd).length := hfound.length_le
      rw [List.length_drop] at hlength
      simp only [slice_eq_ok (Nat.zero_le headersEnd) (by omega : headersEnd ≤ part.length),
        slice_eq_ok (by omega : headersEnd + 4 ≤ part.length) le_rfl, bind, Except.bind]
      exact ⟨_, rfl⟩

theorem scanParts_ok {pairs : List (ℕ × ℕ)}
    (hpairs : ∀ pair ∈ pairs, pair.1 + delimiter.length ≤ body.length ∧ pair.2 ≤ body.length)
    (fallback : Option MultipartFile) : ∃ r, scanParts body delimiter pairs fallback = .ok r := by
  induction pairs generalizing fallback with
  | nil => exact ⟨_, rfl⟩
  | cons pair pairs ih =>
    obtain ⟨⟨hstart, hstop⟩, hpairs⟩ := List.forall_mem_cons.mp hpairs
    obtain ⟨found, hfound⟩ := between_ok hstart hstop
    rw [scanParts, hfound]
    cases found with
    | closing => exact ⟨_, rfl⟩
    | malformed => exact ih hpairs fallback
    | part part =>
      obtain ⟨halves, hhalves⟩ := splitPart_ok part
      dsimp only [bind, Except.bind]
      rw [hhalves]
      match halves with
      | none => exact ih hpairs fallback
      | some (raw, content) =>
        dsimp only
        split_ifs
        · exact ⟨_, rfl⟩
        · exact ih hpairs _
        · exact ih hpairs _

/-- The parser does not panic. -/
theorem extract_ok (body : List UInt8) (contentType : List Char) :
    ∃ r, extractMultipartFile body contentType = .ok r := by
  unfold extractMultipartFile
  cases multipartBoundary contentType with
  | none => exact ⟨_, rfl⟩
  | some boundary =>
    have hdelimiter : utf8 ('-' :: '-' :: boundary) ≠ [] := List.cons_ne_nil _ _
    dsimp only
    rw [positions_delimiters hdelimiter]
    refine scanParts_ok (fun pair hpair => ?_) none
    have hin {pos : ℕ} (hpos : pos ∈ delimiters (utf8 ('-' :: '-' :: boundary)) body) :
        pos + (utf8 ('-' :: '-' :: boundary)).length ≤ body.length := by
      obtain ⟨hrange, hfound⟩ := List.mem_filter.mp hpos
      have hlength := (of_decide_eq_true hfound).2.length_le
      have hle := List.mem_range.mp hrange
      rw [List.length_drop] at hlength
      omega
    obtain ⟨hstart, hstop⟩ := List.of_mem_zip hpair
    have hstop := hin (List.mem_of_mem_tail hstop)
    exact ⟨hin hstart, by omega⟩

/-! ## The parts of a form -/

/-- A part as a file, whose name is taken to be that. -/
def fileOf (filename : FormPart → Option (List Char)) (p : FormPart) : MultipartFile :=
  ⟨p.content, filename p, p.contentType.map ContentType.text⟩

/-- The first part with a file name, or else the first one called `file`. -/
def fileAmong (filename : FormPart → Option (List Char)) (parts : List FormPart) :
    Option MultipartFile :=
  ((parts.find? fun p => (filename p).isSome).or
    (parts.find? fun p => p.name = "file".toList)).map (fileOf filename)

/-- The file name that the parser takes a part to have. -/
def readFilename (p : FormPart) : Option (List Char) :=
  (injected p.name).or (p.filename.map received)

variable {b : Boundary}

theorem scanParts_encodePart (p : FormPart) (pre rest : List UInt8) (pairs : List (ℕ × ℕ))
    (fallback : Option MultipartFile) :
    scanParts (pre ++ encodePart b p ++ rest) b.delimiter
        ((pre.length, pre.length + (encodePart b p).length) :: pairs) fallback =
      if (readFilename p).isSome then .ok (some (fileOf readFilename p))
      else scanParts (pre ++ encodePart b p ++ rest) b.delimiter pairs
        (if fallback.isNone && decide (p.name = "file".toList) then some (fileOf readFilename p)
          else fallback) := by
  have hfile : (some (received p.name) == some "file".toList) =
      decide (p.name = "file".toList) := by
    rw [Bool.eq_iff_iff, beq_iff_eq, Option.some_inj, received_eq_file, decide_eq_true_iff]
  rw [scanParts, between_encodePart pre rest]
  dsimp only [bind, Except.bind]
  rw [splitPart_encoded]
  dsimp only
  rw [readHeaders_headerText]
  dsimp only
  rw [dispositionParam_filename, dispositionParam_name, hfile]
  rfl

/-- What is found among the parts of a body, behind a fallback. -/
theorem scanParts_parts (parts : List FormPart) (pre rest : List UInt8)
    (fallback : Option MultipartFile) :
    scanParts (pre ++ (parts.map (encodePart b)).flatten ++ rest) b.delimiter
        (bounds pre.length (parts.map (encodePart b))) fallback =
      .ok (((parts.find? fun p => (readFilename p).isSome).map (fileOf readFilename)).or
        (fallback.or ((parts.find? fun p => p.name = "file".toList).map
          (fileOf readFilename)))) := by
  induction parts generalizing pre fallback with
  | nil => exact congrArg Except.ok (Option.or_none).symm
  | cons p parts ih =>
    have hbody : pre ++ ((p :: parts).map (encodePart b)).flatten ++ rest =
        pre ++ encodePart b p ++ ((parts.map (encodePart b)).flatten ++ rest) := by
      rw [List.map_cons, List.flatten_cons]
      simp only [List.append_assoc]
    have hrest := ih (pre ++ encodePart b p)
    rw [List.length_append, List.append_assoc (pre ++ encodePart b p)] at hrest
    rw [hbody, List.map_cons, bounds, scanParts_encodePart, hrest, List.find?_cons, List.find?_cons]
    cases hread : (readFilename p).isSome with
    | true => rfl
    | false =>
      cases decide (p.name = "file".toList) <;> cases fallback <;> rfl

/-- The blocks of a body begin with the delimiters, of which the last begins what stands behind
them. -/
theorem extract_parts {parts : List FormPart}
    (hcontents : ∀ p ∈ parts, NoLineBegins b.delimiter p.content) {y : List UInt8}
    (hy : delimiters b.delimiter y = [0]) :
    extractMultipartFile ((parts.map (encodePart b)).flatten ++ y) b.contentType =
      .ok (fileAmong readFilename parts) := by
  have hblocks : ∀ block ∈ parts.map (encodePart b), IsBlock b.delimiter block := by
    intro block hblock
    obtain ⟨p, hp, rfl⟩ := List.mem_map.mp hblock
    exact isBlock_encodePart (hcontents p hp)
  have hstarts : delimiters b.delimiter ((parts.map (encodePart b)).flatten ++ y) =
      starts 0 (parts.map (encodePart b)) ++ [0 + (parts.map (encodePart b)).flatten.length] := by
    have hmap := delimiters_blocks (y := y) b.delimiter_ne_nil hblocks 0
    rw [hy] at hmap
    have hsame (positions : List ℕ) : positions.map (0 + ·) = positions := by
      simp only [Nat.zero_add, List.map_id']
    rw [hsame] at hmap
    exact hmap
  unfold extractMultipartFile
  rw [multipartBoundary_contentType]
  dsimp only
  have hdelimiter : utf8 ('-' :: '-' :: b.chars) ≠ [] := b.delimiter_ne_nil
  rw [positions_delimiters hdelimiter]
  dsimp only [bind, Except.bind]
  change scanParts _ b.delimiter ((delimiters b.delimiter _).zip (delimiters b.delimiter _).tail)
    none = _
  rw [hstarts, zip_starts]
  refine (scanParts_parts parts [] y none).trans (congrArg Except.ok ?_)
  rw [fileAmong, Option.none_or, Option.map_or]

/-! ## Forms -/

/-- What a user agent sends as a form. -/
structure Form where
  boundary : Boundary
  parts : List FormPart
  nonempty : parts ≠ []
  contents : ∀ p ∈ parts, NoLineBegins boundary.delimiter p.content

def Form.encode (form : Form) : List UInt8 := encodeForm form.boundary form.parts

/-- A form whose end is missing, from the content of its only file on. -/
structure CutForm where
  boundary : Boundary
  fields : List FormPart
  file : FormPart
  plain : ∀ p ∈ fields, p.filename = none ∧ p.name ≠ "file".toList
  contents : ∀ p ∈ fields, NoLineBegins boundary.delimiter p.content
  content : NoLineBegins boundary.delimiter file.content

def CutForm.encode (form : CutForm) : List UInt8 :=
  (form.fields.map (encodePart form.boundary)).flatten ++
    (form.boundary.delimiter ++ crlf ++ form.file.encoded)

/-- The line that closes a form begins with its only delimiter. -/
theorem delimiters_closing (b : Boundary) :
    delimiters b.delimiter (b.delimiter ++ dashes ++ crlf) = [0] := by
  have hline : 13 ∉ b.delimiter ++ dashes := by
    intro hmem
    rcases List.mem_append.mp hmem with h | h
    · exact b.return_notMem h
    · exact absurd h (by decide)
  refine delimiters_eq_singleton b.delimiter_ne_nil ?_ fun x z h hx hstart hprefix => ?_
  · rw [List.append_assoc]
    exact List.prefix_append _ _
  · have hwhole : b.delimiter ++ dashes ++ crlf ++ [] = x ++ z := by rw [List.append_nil, h]
    obtain ⟨x', -, hnil, -⟩ := exists_of_lineStart hline hwhole hx hstart
    have hz : z = [] := (List.append_eq_nil_iff.mp hnil.symm).2
    exact b.delimiter_ne_nil (List.prefix_nil.mp (hz ▸ hprefix))

/-- So does a part that nothing closes. -/
theorem delimiters_cut {p : FormPart} (hcontent : NoLineBegins b.delimiter p.content) :
    delimiters b.delimiter (b.delimiter ++ crlf ++ p.encoded) = [0] := by
  refine delimiters_eq_singleton b.delimiter_ne_nil ?_ fun x z h hx hstart hprefix => ?_
  · rw [List.append_assoc]
    exact List.prefix_append _ _
  · have hwhole : b.delimiter ++ crlf ++ (p.encoded ++ crlf) = x ++ (z ++ crlf) := by
      rw [← List.append_assoc, h, List.append_assoc]
    refine not_prefix_encoded hcontent hwhole hx ?_ hstart [] ?_
    · exact List.append_ne_nil_of_right_ne_nil _ (List.cons_ne_nil _ _)
    · rw [List.append_assoc]
      exact hprefix.trans (List.prefix_append _ _)

theorem extract_form (form : Form) :
    extractMultipartFile form.encode form.boundary.contentType =
      .ok (fileAmong readFilename form.parts) :=
  extract_parts form.contents (delimiters_closing form.boundary)

theorem extract_cutForm (form : CutForm) :
    extractMultipartFile form.encode form.boundary.contentType =
      .ok (fileAmong readFilename form.fields) :=
  extract_parts form.contents (delimiters_cut form.content)

/-! ## Readable forms -/

/-- What the name of a file is: as it stands in the header, or as the user agent was given it. -/
inductive NameReading
  | asSent
  | asTyped

def NameReading.name : NameReading → List Char → List Char
  | .asSent => escape
  | .asTyped => id

/-- The file of a form. -/
def expectedFile (reading : NameReading) (parts : List FormPart) : Option MultipartFile :=
  fileAmong (fun p => p.filename.map reading.name) parts

/-- A part that has a file name, or whose name holds what is taken for one. -/
def takenForFile (p : FormPart) : Bool := (injected p.name).isSome || p.filename.isSome

/-- A part that is taken for a file is the file of the form, with its name: the file name holds no
`;` and is sent as it is meant, or what stands behind a `;` in the name of the field is the same. -/
def TakenAsMeant (reading : NameReading) (parts : List FormPart) (p : FormPart) : Prop :=
  match injected p.name, p.filename with
  | none, none => True
  | none, some filename => ';' ∉ filename ∧ escape filename = reading.name filename
  | some v, some filename => v = reading.name filename
  -- a field that is taken for a file is not told from a file with what it is taken for
  | some v, none => ∃ q ∈ parts.find? fun q => q.filename.isSome,
    q.content = p.content ∧ q.filename.map reading.name = some v ∧
      q.contentType.map ContentType.text = p.contentType.map ContentType.text

/-- The first part that is taken for a file, if there is one, is taken as it is meant. -/
def Readable (reading : NameReading) (parts : List FormPart) : Prop :=
  ∀ p ∈ parts.find? takenForFile, TakenAsMeant reading parts p

theorem readFilename_isSome (p : FormPart) : (readFilename p).isSome = takenForFile p := by
  rw [readFilename, takenForFile, Option.isSome_or, Option.isSome_map]

/-- A file name is read as it is meant when it holds no `;`. -/
theorem received_eq_iff (reading : NameReading) (filename : List Char) :
    received filename = reading.name filename ↔
      ';' ∉ filename ∧ escape filename = reading.name filename := by
  by_cases hmem : ';' ∈ filename
  · refine iff_of_false (fun heq => ?_) fun h => h.1 hmem
    obtain ⟨hquote, hsemicolon⟩ := received_of_mem hmem
    rw [heq] at hquote hsemicolon
    cases reading with
    | asSent => exact notMem_escape filename (.inl rfl) hquote
    | asTyped => exact hsemicolon hmem
  · rw [received_of_notMem hmem, and_iff_right hmem]

theorem find?_filename {reading : NameReading} {parts : List FormPart} :
    (parts.find? fun p => (p.filename.map reading.name).isSome) =
      parts.find? fun p => p.filename.isSome := by
  simp only [Option.isSome_map]

/-- The first part that is taken for a file and is one is the first file. -/
theorem find?_filename_of_taken {parts : List FormPart} {p : FormPart}
    (hfirst : parts.find? takenForFile = some p) (hfile : p.filename.isSome) :
    (parts.find? fun q => q.filename.isSome) = some p := by
  obtain ⟨-, front, back, hparts, hfront⟩ := List.find?_eq_some_iff_append.mp hfirst
  refine List.find?_eq_some_iff_append.mpr ⟨hfile, front, back, hparts, fun q hq => ?_⟩
  have htaken := hfront q hq
  rw [Bool.not_eq_true', takenForFile, Bool.or_eq_false_iff] at htaken
  rw [htaken.2]
  rfl

/-- Where no part is taken for a file, the one called `file` is. -/
theorem fileAmong_of_none {reading : NameReading} {parts : List FormPart}
    (hfirst : parts.find? takenForFile = none) :
    fileAmong readFilename parts = expectedFile reading parts := by
  have hnone : ∀ p ∈ parts, readFilename p = none ∧ p.filename = none := fun p hp => by
    have htaken := Bool.eq_false_iff.mpr (List.find?_eq_none.mp hfirst p hp)
    refine ⟨Option.isSome_eq_false_iff.mp ((readFilename_isSome p).trans htaken) |>
      Option.isNone_iff_eq_none.mp, ?_⟩
    exact Option.isSome_eq_false_iff.mp (Bool.or_eq_false_iff.mp htaken).2 |>
      Option.isNone_iff_eq_none.mp
  have hread : (parts.find? fun p => (readFilename p).isSome) = none :=
    List.find?_eq_none.mpr fun p hp => by rw [(hnone p hp).1]; exact Bool.false_ne_true
  have hfile : (parts.find? fun p => (p.filename.map reading.name).isSome) = none :=
    List.find?_eq_none.mpr fun p hp => by rw [(hnone p hp).2]; exact Bool.false_ne_true
  rw [expectedFile, fileAmong, fileAmong, hread, hfile, Option.none_or]
  refine Option.map_congr fun p hp => ?_
  have hp := List.mem_of_find?_eq_some hp
  rw [fileOf, fileOf, (hnone p hp).1, (hnone p hp).2]
  rfl

theorem fileAmong_of_taken {parts : List FormPart} {p : FormPart}
    (hfirst : parts.find? takenForFile = some p) :
    fileAmong readFilename parts = some (fileOf readFilename p) := by
  have hread : (parts.find? fun p => (readFilename p).isSome) = some p := by
    simp only [readFilename_isSome]
    exact hfirst
  rw [fileAmong, hread]
  rfl

/-- The file that is taken out is that of the form exactly when the form is readable. -/
theorem fileAmong_eq_iff (reading : NameReading) (parts : List FormPart) :
    fileAmong readFilename parts = expectedFile reading parts ↔ Readable reading parts := by
  cases hfirst : parts.find? takenForFile with
  | none =>
    refine iff_of_true (fileAmong_of_none hfirst) fun p hp => ?_
    rw [hfirst] at hp
    cases hp
  | some p =>
    have hreadable : Readable reading parts ↔ TakenAsMeant reading parts p := by
      rw [Readable, hfirst]
      exact ⟨fun h => h p rfl, fun h q hq => Option.some.inj hq ▸ h⟩
    rw [fileAmong_of_taken hfirst, hreadable, expectedFile, fileAmong, find?_filename, TakenAsMeant]
    cases hname : p.filename with
    | some filename =>
      rw [find?_filename_of_taken hfirst (by rw [hname]; rfl), Option.some_or, Option.map_some,
        Option.some_inj]
      rw [fileOf, fileOf, MultipartFile.mk.injEq, and_iff_right rfl, and_iff_left rfl, readFilename,
        hname, Option.map_some, Option.map_some]
      cases injected p.name with
      | none => rw [Option.none_or, Option.some_inj, received_eq_iff]
      | some v => rw [Option.some_or, Option.some_inj]
    | none =>
      have htaken := List.find?_some hfirst
      rw [takenForFile, hname, Option.isSome_none, Bool.or_false] at htaken
      obtain ⟨v, hv⟩ := Option.isSome_iff_exists.mp htaken
      have hread : readFilename p = some v := by rw [readFilename, hv, Option.some_or]
      rw [hv]
      dsimp only
      cases hfile : parts.find? fun q => q.filename.isSome with
      | some q =>
        rw [Option.some_or, Option.map_some, Option.some_inj, fileOf, fileOf,
          MultipartFile.mk.injEq, hread]
        constructor
        · rintro ⟨hcontent, hv', htype⟩
          exact ⟨q, rfl, hcontent.symm, hv'.symm, htype.symm⟩
        · rintro ⟨q', hq', hcontent, hv', htype⟩
          obtain rfl := Option.some.inj hq'
          exact ⟨hcontent.symm, hv'.symm, htype.symm⟩
      | none =>
        refine iff_of_false (fun heq => ?_) (by rintro ⟨q, hq, -⟩; cases hq)
        rw [Option.none_or] at heq
        obtain ⟨q, hq, heq⟩ := Option.map_eq_some_iff.mp heq.symm
        have hnofile := List.find?_eq_none.mp hfile q (List.mem_of_find?_eq_some hq)
        have hfilename := congrArg MultipartFile.filename heq
        rw [fileOf, fileOf, hread] at hfilename
        obtain ⟨filename, hq', -⟩ := Option.map_eq_some_iff.mp hfilename
        exact hnofile (by rw [hq']; rfl)

/-- What is cut off before its end is no file, unless the name of a field is taken for one. -/
theorem fileAmong_eq_none_iff (form : CutForm) :
    fileAmong readFilename form.fields = none ↔ ∀ p ∈ form.fields, injected p.name = none := by
  rw [fileAmong, Option.map_eq_none_iff, Option.or_eq_none_iff, List.find?_eq_none,
    List.find?_eq_none]
  constructor
  · rintro ⟨hread, -⟩ p hp
    have htaken := hread p hp
    rw [readFilename_isSome, takenForFile, (form.plain p hp).1, Option.isSome_none, Bool.or_false]
      at htaken
    exact Option.not_isSome_iff_eq_none.mp htaken
  · intro hnone
    refine ⟨fun p hp => ?_, fun p hp => ?_⟩
    · rw [readFilename, hnone p hp, (form.plain p hp).1]
      exact Bool.false_ne_true
    · rw [decide_eq_true_iff]
      exact (form.plain p hp).2

def shortBoundary : Boundary where
  chars := ['B']
  quoted := false
  nonempty := List.cons_ne_nil _ _
  plain c hc := by
    rw [List.mem_singleton.mp hc]
    rfl
  last := by decide
  spaces hspace := absurd (List.mem_singleton.mp hspace) (by decide)

/-- A file called `a;b.txt`. -/
def semicolonForm : Form where
  boundary := shortBoundary
  parts := [⟨"upload".toList, some "a;b.txt".toList, none, [104, 105]⟩]
  nonempty := List.cons_ne_nil _ _
  contents p hp x z h hstart hprefix := by
    obtain rfl := List.mem_singleton.mp hp
    have hlength := hprefix.length_le
    have hwhole := congrArg List.length h
    rw [List.length_append] at hwhole
    have hlong : shortBoundary.delimiter.length = 3 := rfl
    rw [hlong] at hlength
    simp only [List.length_cons, List.length_nil] at hwhole
    omega

end Multipart
