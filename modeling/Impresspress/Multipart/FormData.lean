import Impresspress.Multipart.Delimiters

/-!
# Forms as browsers send them

A form is a list of fields and files. Their names are written between quotes, with quotes and line
ends percent-encoded and everything else as it is; a content is sent as it is, and the boundary is
one that no line of a content begins with.

## Main definitions

* `Multipart.Boundary`, `Multipart.FormPart`: what a user agent sends.
* `Multipart.encodeForm`: the body of a form.

## Main results

* `Multipart.isBlock_encodePart`: a part is a block, so that the delimiters are where parts begin.
* `Multipart.between_encodePart`, `Multipart.splitPart_encoded`: a part is cut out and apart.
* `Multipart.readHeaders_headerText`: its headers are read.
-/

namespace Multipart

open Percent (utf8)
open Text

/-! ## Forms -/

def isBoundaryChar (c : Char) : Bool :=
  c.isAlphanum || ['\'', '(', ')', '+', '_', ',', '-', '.', '/', ':', '=', '?', ' '].contains c

/-- A boundary, and whether it is written between quotes. -/
structure Boundary where
  chars : List Char
  quoted : Bool
  nonempty : chars ≠ []
  plain : ∀ c ∈ chars, isBoundaryChar c = true
  last : chars.getLast? ≠ some ' '
  spaces : ' ' ∈ chars → quoted = true

/-- The content type of a part, a header value. -/
structure ContentType where
  text : List Char
  line : '\r' ∉ text
  trimmed : Trimmed text

structure FormPart where
  name : List Char
  filename : Option (List Char)
  contentType : Option ContentType
  content : List UInt8

/-- A name as it stands between quotes. -/
def escape (name : List Char) : List Char :=
  name.flatMap fun c =>
    if c = '"' then "%22".toList else if c = '\r' then "%0D".toList
    else if c = '\n' then "%0A".toList else [c]

def quote (name : List Char) : List Char := '"' :: (escape name ++ ['"'])

namespace Boundary

/-- The boundary as it is written in a header. -/
def written (b : Boundary) : List Char := if b.quoted then '"' :: (b.chars ++ ['"']) else b.chars

def contentType (b : Boundary) : List Char :=
  "multipart/form-data".toList ++ ';' :: (" boundary".toList ++ '=' :: b.written)

def delimiter (b : Boundary) : List UInt8 := utf8 ('-' :: '-' :: b.chars)

end Boundary

/-- A parameter of a header, with what stands before it. -/
def parameter (key value : List Char) : List Char := ';' :: (key ++ '=' :: quote value)

namespace FormPart

def disposition (p : FormPart) : List Char :=
  "form-data".toList ++ (parameter " name".toList p.name ++
    (p.filename.map (parameter " filename".toList)).getD [])

def dispositionLine (p : FormPart) : List Char :=
  "Content-Disposition".toList ++ ':' :: ' ' :: p.disposition

def contentTypeLine (t : ContentType) : List Char := "Content-Type".toList ++ ':' :: ' ' :: t.text

/-- The headers of a part. -/
def headerText (p : FormPart) : List Char :=
  p.dispositionLine ++ (p.contentType.map fun t => '\r' :: '\n' :: contentTypeLine t).getD []

/-- What stands between the lines of the delimiters. -/
def encoded (p : FormPart) : List UInt8 := utf8 p.headerText ++ crlf ++ crlf ++ p.content

end FormPart

def encodePart (b : Boundary) (p : FormPart) : List UInt8 :=
  b.delimiter ++ crlf ++ p.encoded ++ crlf

def encodeForm (b : Boundary) (parts : List FormPart) : List UInt8 :=
  (parts.map (encodePart b)).flatten ++ (b.delimiter ++ dashes ++ crlf)

/-- No line of the content begins with the delimiter. -/
def NoLineBegins (delimiter content : List UInt8) : Prop :=
  ∀ x z, content = x ++ z → LineStart x → ¬ delimiter <+: z

/-! ## Characters -/

theorem notMem_utf8 {text : List Char} (h : '\r' ∉ text) : 13 ∉ utf8 text := fun hmem =>
  h (Utf8.mem_of_mem_utf8 hmem (by decide))

theorem utf8_append (x y : List Char) : utf8 (x ++ y) = utf8 x ++ utf8 y := List.flatMap_append

theorem notMem_escape {c : Char} (name : List Char)
    (hc : c = '"' ∨ c = '\r' ∨ c = '\n') : c ∉ escape name := by
  intro hmem
  obtain ⟨c', -, hc'⟩ := List.mem_flatMap.mp hmem
  split_ifs at hc' with hquote hreturn hfeed
  · rcases hc with rfl | rfl | rfl <;> exact absurd hc' (by decide)
  · rcases hc with rfl | rfl | rfl <;> exact absurd hc' (by decide)
  · rcases hc with rfl | rfl | rfl <;> exact absurd hc' (by decide)
  · obtain rfl := List.mem_singleton.mp hc'
    rcases hc with rfl | rfl | rfl
    · exact hquote rfl
    · exact hreturn rfl
    · exact hfeed rfl

/-- A separator stands in a name exactly when it stands in what is sent. -/
theorem semicolon_mem_escape (name : List Char) : ';' ∈ escape name ↔ ';' ∈ name := by
  constructor
  · intro hmem
    obtain ⟨c, hc, hmem⟩ := List.mem_flatMap.mp hmem
    split_ifs at hmem
    · exact absurd hmem (by decide)
    · exact absurd hmem (by decide)
    · exact absurd hmem (by decide)
    · exact List.mem_singleton.mp hmem ▸ hc
  · intro hmem
    exact List.mem_flatMap.mpr ⟨';', hmem, by decide⟩

theorem return_notMem_quote (name : List Char) : '\r' ∉ quote name := by
  intro hmem
  rcases List.mem_cons.mp hmem with h | h
  · exact absurd h (by decide)
  · rcases List.mem_append.mp h with h | h
    · exact notMem_escape name (.inr (.inl rfl)) h
    · exact absurd h (by decide)

theorem return_notMem_parameter {key : List Char} (hkey : '\r' ∉ key) (value : List Char) :
    '\r' ∉ parameter key value := by
  intro hmem
  rcases List.mem_cons.mp hmem with h | h
  · exact absurd h (by decide)
  · rcases List.mem_append.mp h with h | h
    · exact hkey h
    · rcases List.mem_cons.mp h with h | h
      · exact absurd h (by decide)
      · exact return_notMem_quote value h

namespace FormPart

variable (p : FormPart)

theorem return_notMem_disposition : '\r' ∉ p.disposition := by
  intro hmem
  rcases List.mem_append.mp hmem with h | h
  · exact absurd h (by decide)
  · rcases List.mem_append.mp h with h | h
    · exact return_notMem_parameter (by decide) _ h
    · cases hname : p.filename with
      | none =>
        rw [hname] at h
        exact absurd h List.not_mem_nil
      | some filename =>
        rw [hname] at h
        exact return_notMem_parameter (by decide) _ h

theorem return_notMem_dispositionLine : '\r' ∉ p.dispositionLine := by
  intro hmem
  rcases List.mem_append.mp hmem with h | h
  · exact absurd h (by decide)
  · rcases List.mem_cons.mp h with h | h
    · exact absurd h (by decide)
    · rcases List.mem_cons.mp h with h | h
      · exact absurd h (by decide)
      · exact p.return_notMem_disposition h

theorem return_notMem_contentTypeLine (t : ContentType) : '\r' ∉ contentTypeLine t := by
  intro hmem
  rcases List.mem_append.mp hmem with h | h
  · exact absurd h (by decide)
  · rcases List.mem_cons.mp h with h | h
    · exact absurd h (by decide)
    · rcases List.mem_cons.mp h with h | h
      · exact absurd h (by decide)
      · exact t.line h

end FormPart

/-! ## Lines -/

variable {x y z line : List UInt8} (b : Boundary) (p : FormPart)

theorem Boundary.return_notMem : 13 ∉ b.delimiter := by
  unfold Boundary.delimiter
  refine notMem_utf8 fun hmem => ?_
  rcases List.mem_cons.mp hmem with h | h
  · exact absurd h (by decide)
  · rcases List.mem_cons.mp h with h | h
    · exact absurd h (by decide)
    · exact absurd (b.plain _ h) (by decide)

theorem Boundary.delimiter_eq : b.delimiter = 45 :: 45 :: utf8 b.chars := rfl

theorem Boundary.delimiter_ne_nil : b.delimiter ≠ [] := List.cons_ne_nil _ _

/-- What begins with something else does not begin with the delimiter. -/
theorem Boundary.not_prefix {c : UInt8} (hc : c ≠ 45) : ¬ b.delimiter <+: c :: z := by
  rintro ⟨rest, heq⟩
  exact hc (List.cons.inj heq).1.symm

/-- A line's end cannot be within the delimiter. -/
theorem Boundary.prefix_of_prefix_append {y : List UInt8}
    (h : b.delimiter <+: z ++ 13 :: y) : b.delimiter <+: z := by
  obtain ⟨rest, heq⟩ := h
  rcases List.append_eq_append_iff.mp heq with ⟨w, hz, -⟩ | ⟨w, hd, hy⟩
  · exact ⟨w, hz.symm⟩
  · cases w with
    | nil => exact ⟨[], by rw [hd, List.append_nil, List.append_nil]⟩
    | cons c w =>
      obtain ⟨rfl, -⟩ := List.cons.inj hy
      exact absurd (hd ▸ List.mem_append_right z List.mem_cons_self) b.return_notMem

/-- Behind a line, what starts another one starts one. -/
theorem exists_of_lineStart (hline : 13 ∉ line) (h : line ++ crlf ++ y = x ++ z) (hx : x ≠ [])
    (hstart : LineStart x) : ∃ x', x = line ++ crlf ++ x' ∧ y = x' ++ z ∧ LineStart x' := by
  obtain ⟨front, rfl⟩ := hstart.resolve_left hx
  rcases List.append_eq_append_iff.mp h with ⟨x', hx', hy⟩ | ⟨w, hw, hz⟩
  · rw [hx'] at hstart
    exact ⟨x', hx', hy, (lineStart_append (List.suffix_append _ _)).mp hstart⟩
  · have hnil : w = [] := by
      rw [List.append_assoc] at hw
      rcases List.append_eq_append_iff.mp hw with ⟨v, -, hv⟩ | ⟨v, hv, hv'⟩
      · have hlength := congrArg List.length hv
        simp only [crlf, List.length_append, List.length_cons, List.length_nil] at hlength
        exact List.length_eq_zero_iff.mp (by omega)
      · cases v with
        | nil =>
          have hcrlf : crlf ++ w = crlf ++ [] := hv'
          exact List.append_cancel_left hcrlf
        | cons c v =>
          obtain ⟨rfl, -⟩ := List.cons.inj hv'
          exact absurd (hv ▸ List.mem_append_right front List.mem_cons_self) hline
    subst hnil
    rw [List.append_nil] at hw
    exact ⟨[], by rw [hw, List.append_nil], hz.symm, .inl rfl⟩

/-- The rest of a content and the end of its line do not begin with the delimiter. -/
theorem not_prefix_content {content : List UInt8} (hcontent : NoLineBegins b.delimiter content)
    (h : content ++ crlf = x ++ z) (hz : z ≠ []) (hstart : LineStart x) (rest : List UInt8) :
    ¬ b.delimiter <+: z ++ rest := by
  rcases List.append_eq_append_iff.mp h with ⟨w, rfl, hw⟩ | ⟨w, rfl, rfl⟩
  · match w, hw with
    | [], hw =>
      have hz : z = crlf := hw.symm
      rw [hz]
      exact b.not_prefix (by decide)
    | [c], hw =>
      obtain ⟨rfl, -⟩ := List.cons.inj hw
      rcases hstart with hnil | ⟨front, heq⟩
      · exact absurd hnil (List.append_ne_nil_of_right_ne_nil _ (List.cons_ne_nil _ _))
      · have hlast := congrArg List.getLast? heq
        simp [crlf] at hlast
    | c :: c' :: w, hw =>
      have hlength := congrArg List.length hw
      simp only [crlf, List.length_append, List.length_cons, List.length_nil] at hlength
      exact absurd (List.length_eq_zero_iff.mp (by omega)) hz
  · intro hprefix
    rw [List.append_assoc] at hprefix
    exact hcontent x w rfl hstart (b.prefix_of_prefix_append hprefix)

/-! ## Parts -/

/-- The bytes of a line begin with that of a `C`. -/
theorem exists_dispositionLine : ∃ rest, utf8 p.dispositionLine = 67 :: rest := ⟨_, rfl⟩

theorem exists_contentTypeLine (t : ContentType) :
    ∃ rest, utf8 (FormPart.contentTypeLine t) = 67 :: rest := ⟨_, rfl⟩

/-- The header lines other than the first, each with its end. -/
def FormPart.moreHeaders (p : FormPart) : List UInt8 :=
  match p.contentType with
  | none => []
  | some t => utf8 (contentTypeLine t) ++ crlf

variable {p} in
theorem headerText_of_none (h : p.contentType = none) : p.headerText = p.dispositionLine := by
  rw [FormPart.headerText, h, Option.map_none, Option.getD_none, List.append_nil]

variable {p} in
theorem headerText_of_some {t : ContentType} (h : p.contentType = some t) :
    p.headerText = p.dispositionLine ++ '\r' :: '\n' :: FormPart.contentTypeLine t := by
  rw [FormPart.headerText, h, Option.map_some, Option.getD_some]

theorem utf8_headerText : utf8 p.headerText ++ crlf =
    utf8 p.dispositionLine ++ crlf ++ p.moreHeaders := by
  unfold FormPart.moreHeaders
  cases htype : p.contentType with
  | none => rw [headerText_of_none htype, List.append_nil]
  | some t =>
    rw [headerText_of_some htype, utf8_append, List.append_assoc, List.append_assoc]
    rfl

theorem encoded_eq : p.encoded =
    utf8 p.dispositionLine ++ crlf ++ (p.moreHeaders ++ ([] ++ crlf ++ p.content)) := by
  rw [FormPart.encoded, utf8_headerText]
  simp only [List.append_assoc, List.nil_append]

variable {b p}

/-- Behind the headers of a part stand the lines of its content. -/
theorem not_prefix_moreHeaders {content : List UInt8}
    (hcontent : NoLineBegins b.delimiter content)
    (h : p.moreHeaders ++ ([] ++ crlf ++ (content ++ crlf)) = x ++ z) (hz : z ≠ [])
    (hstart : LineStart x) (rest : List UInt8) : ¬ b.delimiter <+: z ++ rest := by
  -- the empty line, and what stands behind it
  have hempty : ∀ x, [] ++ crlf ++ (content ++ crlf) = x ++ z → LineStart x →
      ¬ b.delimiter <+: z ++ rest := by
    intro x h hstart
    by_cases hx : x = []
    · subst hx
      rw [← h.trans (List.nil_append z)]
      exact b.not_prefix (by decide)
    · obtain ⟨x', -, hx', hstart'⟩ := exists_of_lineStart List.not_mem_nil h hx hstart
      exact not_prefix_content b hcontent hx' hz hstart' rest
  unfold FormPart.moreHeaders at h
  cases htype : p.contentType with
  | none =>
    rw [htype] at h
    exact hempty x h hstart
  | some t =>
    rw [htype] at h
    have h : utf8 (FormPart.contentTypeLine t) ++ crlf ++ ([] ++ crlf ++ (content ++ crlf)) =
      x ++ z := h
    by_cases hx : x = []
    · subst hx
      obtain ⟨line, hline⟩ := exists_contentTypeLine t
      have hz : z = 67 :: (line ++ crlf ++ ([] ++ crlf ++ (content ++ crlf))) := by
        rw [← h.trans (List.nil_append z), hline]
        rfl
      rw [hz]
      exact b.not_prefix (by decide)
    · obtain ⟨x', -, hx', hstart'⟩ := exists_of_lineStart
        (notMem_utf8 (FormPart.return_notMem_contentTypeLine t)) h hx hstart
      exact hempty x' hx' hstart'

/-- No line between the delimiter and the end of a part begins with the delimiter. -/
theorem not_prefix_encoded (hcontent : NoLineBegins b.delimiter p.content)
    (h : b.delimiter ++ crlf ++ (p.encoded ++ crlf) = x ++ z) (hx : x ≠ []) (hz : z ≠ [])
    (hstart : LineStart x) (rest : List UInt8) : ¬ b.delimiter <+: z ++ rest := by
  obtain ⟨x₁, -, h₁, hstart₁⟩ := exists_of_lineStart b.return_notMem h hx hstart
  rw [encoded_eq] at h₁
  by_cases hx₁ : x₁ = []
  · subst hx₁
    obtain ⟨line, hline⟩ := exists_dispositionLine p
    obtain ⟨tail, htail⟩ : ∃ tail, z = 67 :: tail := by
      rw [← h₁.trans (List.nil_append z), hline]
      exact ⟨_, rfl⟩
    rw [htail]
    exact b.not_prefix (by decide)
  · have h₁ : utf8 p.dispositionLine ++ crlf ++
        (p.moreHeaders ++ ([] ++ crlf ++ (p.content ++ crlf))) = x₁ ++ z := by
      rw [← h₁]
      simp only [List.append_assoc]
    obtain ⟨x₂, -, h₂, hstart₂⟩ := exists_of_lineStart
      (notMem_utf8 p.return_notMem_dispositionLine) h₁ hx₁ hstart₁
    exact not_prefix_moreHeaders hcontent h₂ hz hstart₂ rest

theorem isBlock_encodePart (hcontent : NoLineBegins b.delimiter p.content) :
    IsBlock b.delimiter (encodePart b p) where
  first := by
    rw [encodePart, List.append_assoc, List.append_assoc]
    exact List.prefix_append _ _
  last := List.suffix_append _ _
  inner x z rest h hx hz hstart := by
    rw [encodePart, List.append_assoc] at h
    exact not_prefix_encoded hcontent h hx hz hstart rest

/-- What stands between the end of a delimiter's line and the next delimiter is cut out. -/
theorem between_eq (front inner rest : List UInt8) {stop : ℕ}
    (hstop : stop = front.length + inner.length + 4) :
    between (front ++ (crlf ++ inner ++ crlf) ++ rest) front.length stop = .ok (.part inner) := by
  have htail : slice (front ++ (crlf ++ inner ++ crlf) ++ rest) front.length
      (front ++ (crlf ++ inner ++ crlf) ++ rest).length =
        .ok (crlf ++ inner ++ crlf ++ rest) :=
    slice_of_split (z := []) (by simp) rfl (by simp)
  have hline : slice (front ++ (crlf ++ inner ++ crlf) ++ rest) front.length stop =
      .ok (crlf ++ inner ++ crlf) :=
    slice_of_split rfl rfl (by simp [crlf, hstop]; omega)
  have hpart : slice (front ++ (crlf ++ inner ++ crlf) ++ rest) (front.length + 2) (stop - 2) =
      .ok inner :=
    slice_of_split (x := front ++ crlf) (z := crlf ++ rest) (by simp) (by simp [crlf])
      (by simp [crlf, hstop]; omega)
  have hbyte : byteAt (front ++ (crlf ++ inner ++ crlf) ++ rest) front.length = .ok 13 := by
    have hget : (front ++ (crlf ++ inner ++ crlf) ++ rest)[front.length]? = some 13 := by
      rw [List.append_assoc, List.getElem?_append_right le_rfl, Nat.sub_self]
      rfl
    rw [byteAt, hget]
  have hskip : skipPadding (front ++ (crlf ++ inner ++ crlf) ++ rest) stop (stop - front.length)
      front.length = .ok front.length := by
    rw [show stop - front.length = inner.length + 3 + 1 by omega, skipPadding,
      if_pos (by omega), hbyte]
    rfl
  have hclosing : dashes.isPrefixOf (crlf ++ inner ++ crlf ++ rest) = false := rfl
  have hends : crlf.isPrefixOf (crlf ++ inner ++ crlf) = true := rfl
  have hroom : ¬ stop < front.length := by omega
  have hends' : (stop < 2 || stop - 2 < front.length + 2) = false := by
    rw [Bool.or_eq_false_iff, decide_eq_false_iff_not, decide_eq_false_iff_not]
    omega
  simp only [between, bind, Except.bind, htail, hskip, hline, hpart, hclosing, hends, hends', hroom,
    Bool.false_eq_true, ↓reduceIte, Bool.not_true]
  rfl

/-- The part between two delimiters is cut out. -/
theorem between_encodePart (pre rest : List UInt8) :
    between (pre ++ encodePart b p ++ rest) (pre.length + b.delimiter.length)
      (pre.length + (encodePart b p).length) = .ok (.part p.encoded) := by
  have hbody : pre ++ encodePart b p ++ rest =
      pre ++ b.delimiter ++ (crlf ++ p.encoded ++ crlf) ++ rest := by
    simp only [encodePart, List.append_assoc]
  have hstop : pre.length + (encodePart b p).length =
      (pre ++ b.delimiter).length + p.encoded.length + 4 := by
    simp only [encodePart, crlf, List.length_append, List.length_cons, List.length_nil]
    omega
  have hpart := between_eq (pre ++ b.delimiter) p.encoded rest hstop
  rwa [List.length_append, ← hbody] at hpart

/-- Within a line no line ends. -/
theorem not_prefix_drop {q : ℕ} (hline : 13 ∉ line) (hq : q < line.length) (tail : List UInt8) :
    ¬ crlf ++ crlf <+: (line ++ tail).drop q := by
  rw [List.drop_append_of_le_length hq.le, List.drop_eq_getElem_cons hq]
  rintro ⟨rest, heq⟩
  exact hline ((List.cons.inj heq).1 ▸ List.getElem_mem hq)

/-- The first empty line is that behind the headers. -/
theorem find_encoded : find p.encoded (crlf ++ crlf) 0 = some (utf8 p.headerText).length := by
  have hempty : crlf ++ crlf ≠ [] := List.cons_ne_nil _ _
  rw [find_eq_some_iff hempty, FormPart.encoded, List.append_assoc, List.append_assoc]
  refine ⟨Nat.zero_le _, ?_, fun q _ hq => ?_⟩
  · rw [List.drop_left, ← List.append_assoc]
    exact List.prefix_append _ _
  · generalize crlf ++ (crlf ++ p.content) = tail
    have hdisposition := notMem_utf8 p.return_notMem_dispositionLine
    cases htype : p.contentType with
    | none =>
      rw [headerText_of_none htype] at hq ⊢
      exact not_prefix_drop hdisposition hq tail
    | some t =>
      rw [headerText_of_some htype, utf8_append] at hq ⊢
      have htype := notMem_utf8 (FormPart.return_notMem_contentTypeLine t)
      obtain ⟨rest, hrest⟩ := exists_contentTypeLine t
      change q < (utf8 p.dispositionLine ++ (crlf ++ utf8 (FormPart.contentTypeLine t))).length at hq
      change ¬ _ <+: ((utf8 p.dispositionLine ++ (crlf ++ utf8 (FormPart.contentTypeLine t))) ++
        tail).drop q
      rw [List.append_assoc]
      rcases Nat.lt_or_ge q (utf8 p.dispositionLine).length with hlt | hge
      · exact not_prefix_drop hdisposition hlt _
      · obtain ⟨j, rfl⟩ := Nat.exists_eq_add_of_le hge
        rw [List.drop_length_add_append, hrest]
        match j with
        | 0 => exact fun hprefix => absurd hprefix (by rintro ⟨w, hw⟩; simp [crlf] at hw)
        | 1 => exact fun hprefix => absurd hprefix (by rintro ⟨w, hw⟩; simp [crlf] at hw)
        | j + 2 =>
          rw [← hrest, List.append_assoc, show j + 2 = crlf.length + j from Nat.add_comm _ _,
            List.drop_length_add_append]
          refine not_prefix_drop htype ?_ tail
          rw [List.length_append, List.length_append] at hq
          have : crlf.length = 2 := rfl
          omega

theorem splitPart_encoded :
    splitPart p.encoded = .ok (some (utf8 p.headerText, p.content)) := by
  obtain ⟨rest, hrest⟩ := exists_dispositionLine p
  have hfirst : crlf.isPrefixOf p.encoded = false := by
    rw [encoded_eq, hrest]
    rfl
  have hheaders : slice p.encoded 0 (utf8 p.headerText).length = .ok (utf8 p.headerText) :=
    slice_of_split (x := []) (z := crlf ++ crlf ++ p.content) (by simp [FormPart.encoded]) rfl
      (by simp)
  have hcontent : slice p.encoded ((utf8 p.headerText).length + 4) p.encoded.length =
      .ok p.content :=
    slice_of_split (x := utf8 p.headerText ++ crlf ++ crlf) (z := []) (by simp [FormPart.encoded])
      (by simp [crlf]) (by simp [FormPart.encoded, crlf]; omega)
  simp only [splitPart, hfirst, find_encoded, bind, Except.bind, hheaders, hcontent,
    Bool.false_eq_true, ↓reduceIte]
  rfl

/-! ## Headers -/

theorem isWhitespace_space : ∀ c ∈ [' '], isWhitespace c = true := fun c hc => by
  rw [List.mem_singleton.mp hc]
  rfl

theorem trim_space (text : List Char) (h : Trimmed text) : trim (' ' :: text) = text := by
  have htrim := trim_eq h isWhitespace_space (List.forall_mem_nil _)
  rwa [List.append_nil] at htrim

theorem quote_getLast? (name : List Char) : (quote name).getLast? = some '"' := by
  rw [quote, List.getLast?_cons, List.getLast?_concat]
  rfl

theorem parameter_getLast? (key value : List Char) :
    (parameter key value).getLast? = some '"' := by
  rw [parameter, List.getLast?_cons, List.getLast?_append, List.getLast?_cons, quote_getLast?]
  rfl

theorem disposition_getLast? : p.disposition.getLast? = some '"' := by
  unfold FormPart.disposition
  cases p.filename with
  | none =>
    rw [Option.map_none, Option.getD_none, List.append_nil, List.getLast?_append,
      parameter_getLast?]
    rfl
  | some filename =>
    rw [Option.map_some, Option.getD_some, List.getLast?_append, List.getLast?_append,
      parameter_getLast?]
    rfl

theorem trimmed_disposition : Trimmed p.disposition where
  head c hc := by
    obtain rfl : c = 'f' := Option.some.inj hc.symm
    rfl
  last c hc := by
    rw [disposition_getLast?] at hc
    obtain rfl : c = '"' := Option.some.inj hc.symm
    rfl

/-- A header line is its name, a colon and its value. -/
theorem readHeader_line (headers : Headers) {name : List Char} (hname : ':' ∉ name)
    (value : List Char) : readHeader headers (name ++ ':' :: value) =
      if eqIgnoreAsciiCase (trim name) "content-disposition".toList then
        { headers with disposition := trim value }
      else if eqIgnoreAsciiCase (trim name) "content-type".toList then
        { headers with contentType := some (trim value) }
      else headers := by
  rw [readHeader, splitOnce_append hname]

theorem readHeader_disposition (headers : Headers) :
    readHeader headers p.dispositionLine = { headers with disposition := p.disposition } := by
  refine (readHeader_line headers (by decide) _).trans ?_
  rw [trim_space _ trimmed_disposition]
  exact if_pos (by decide)

theorem readHeader_contentType (headers : Headers) (t : ContentType) :
    readHeader headers (FormPart.contentTypeLine t) =
      { headers with contentType := some t.text } := by
  refine (readHeader_line headers (by decide) _).trans ?_
  rw [trim_space _ t.trimmed]
  exact (if_neg (by decide)).trans (if_pos (by decide))

theorem readHeaders_headerText : readHeaders (utf8 p.headerText) =
    ⟨p.disposition, p.contentType.map ContentType.text⟩ := by
  rw [readHeaders, Utf8.fromUtf8Lossy_utf8]
  cases htype : p.contentType with
  | none =>
    rw [headerText_of_none htype, splitCrlf_of_notMem p.return_notMem_dispositionLine,
      List.foldl_cons, List.foldl_nil, readHeader_disposition]
    rfl
  | some t =>
    rw [headerText_of_some htype, splitCrlf_line p.return_notMem_dispositionLine,
      splitCrlf_of_notMem (FormPart.return_notMem_contentTypeLine t), List.foldl_cons,
      List.foldl_cons, List.foldl_nil, readHeader_disposition, readHeader_contentType]
    rfl

end Multipart
