import Impresspress.Encoding.Utf8
import Impresspress.Text.Fields

/-!
# Taking the file out of a form

A form is sent as parts between delimiter lines, each with headers and a content. The file is the
content of the first part that has a file name, or else of the first one called `file`.

## Main definitions

* `Multipart.multipartBoundary`: the boundary that the content type of a request names.
* `Multipart.extractMultipartFile`: the file in a body; a slice out of bounds is a panic.
-/

namespace Multipart

open Percent (utf8)
open Text

/-- An index out of bounds. -/
inductive Panic
  | outOfBounds
  deriving DecidableEq, Repr

def slice (bytes : List UInt8) (start stop : ℕ) : Except Panic (List UInt8) :=
  if start ≤ stop ∧ stop ≤ bytes.length then .ok ((bytes.take stop).drop start)
  else .error .outOfBounds

def byteAt (bytes : List UInt8) (i : ℕ) : Except Panic UInt8 :=
  match bytes[i]? with
  | some b => .ok b
  | none => .error .outOfBounds

/-- The first occurrence of `needle` at `start` or later. -/
def find (haystack needle : List UInt8) (start : ℕ) : Option ℕ :=
  if needle.isEmpty || haystack.length < start then none
  else ((haystack.drop start).tails.findIdx? fun rest => needle.isPrefixOf rest).map (· + start)

def crlf : List UInt8 := [13, 10]

/-- `--` -/
def dashes : List UInt8 := [45, 45]

structure MultipartFile where
  content : List UInt8
  filename : Option (List Char)
  contentType : Option (List Char)
  deriving DecidableEq, Repr

/-! ## The boundary -/

def isAsciiControl (b : UInt8) : Bool := b < 32 || b == 127

/-- The first boundary among the parameters. -/
def boundaryOf : List (List Char) → Option (List Char)
  | [] => none
  | param :: params =>
    match splitOnce '=' (trim param) with
    | none => boundaryOf params
    | some (name, value) =>
      if eqIgnoreAsciiCase (trim name) "boundary".toList then
        let value := unquote (trim value)
        if value.isEmpty then boundaryOf params
        -- a malformed one is not passed over
        else if (utf8 value).any isAsciiControl then none
        else some value
      else boundaryOf params

def multipartBoundary (contentType : List Char) : Option (List Char) :=
  match contentType.splitOn ';' with
  | [] => none
  | mime :: params =>
    if eqIgnoreAsciiCase (trim mime) "multipart/form-data".toList then boundaryOf params else none

/-! ## The headers of a part -/

/-- A parameter of a `Content-Disposition`. -/
def paramOf (param : List Char) : List (List Char) → Option (List Char)
  | [] => none
  | token :: tokens =>
    match splitOnce '=' token with
    | none => paramOf param tokens
    | some (name, value) =>
      if eqIgnoreAsciiCase (trim name) param then some (unquote (trim value))
      else paramOf param tokens

def dispositionParam (disposition param : List Char) : Option (List Char) :=
  paramOf param (disposition.splitOn ';')

structure Headers where
  disposition : List Char
  contentType : Option (List Char)

def readHeader (headers : Headers) (line : List Char) : Headers :=
  match splitOnce ':' line with
  | none => headers
  | some (name, value) =>
    if eqIgnoreAsciiCase (trim name) "content-disposition".toList then
      { headers with disposition := trim value }
    else if eqIgnoreAsciiCase (trim name) "content-type".toList then
      { headers with contentType := some (trim value) }
    else headers

def readHeaders (raw : List UInt8) : Headers :=
  (splitCrlf (Utf8.fromUtf8Lossy raw)).foldl readHeader ⟨[], none⟩

/-- The headers of a part and its content, if an empty line stands between them. -/
def splitPart (part : List UInt8) : Except Panic (Option (List UInt8 × List UInt8)) :=
  if crlf.isPrefixOf part then pure (some ([], part.drop 2))
  else
    match find part (crlf ++ crlf) 0 with
    | none => pure none
    | some headersEnd => do
      let headers ← slice part 0 headersEnd
      let content ← slice part (headersEnd + 4) part.length
      pure (some (headers, content))

/-! ## The parts of a body -/

/-- The delimiter at `pos` starts a line. -/
def startsLine (body : List UInt8) (pos : ℕ) : Except Panic Bool :=
  if pos = 0 then pure true
  else if 2 ≤ pos then do
    let before ← slice body (pos - 2) pos
    pure (before == crlf)
  else pure false

/-- The delimiters that start a line, from `start` on. -/
def positions (body delimiter : List UInt8) : ℕ → ℕ → Except Panic (List ℕ)
  | 0, _ => pure []
  | fuel + 1, start =>
    match find body delimiter start with
    | none => pure []
    | some pos => do
      let first ← startsLine body pos
      let rest ← positions body delimiter fuel (pos + 1)
      pure (if first then pos :: rest else rest)

/-- Behind the spaces and tabs from `cursor` on. -/
def skipPadding (body : List UInt8) (stop : ℕ) : ℕ → ℕ → Except Panic ℕ
  | 0, cursor => pure cursor
  | fuel + 1, cursor =>
    if cursor < stop then do
      let b ← byteAt body cursor
      if b == 32 || b == 9 then skipPadding body stop fuel (cursor + 1) else pure cursor
    else pure cursor

inductive Between
  | closing
  | malformed
  | part (bytes : List UInt8)

/-- What stands between two delimiters, the first of which has ended at `after`. -/
def between (body : List UInt8) (after stop : ℕ) : Except Panic Between := do
  let rest ← slice body after body.length
  if dashes.isPrefixOf rest then pure .closing
  else do
    let cursor ← skipPadding body stop (stop - after) after
    if stop < cursor then pure .malformed
    else do
      let line ← slice body cursor stop
      if !crlf.isPrefixOf line then pure .malformed
      else if stop < 2 || stop - 2 < cursor + 2 then pure .malformed
      else do
        let part ← slice body (cursor + 2) (stop - 2)
        pure (.part part)

/-- The file among the parts between these delimiters; `fallback` is the first part called `file`,
up to here. -/
def scanParts (body delimiter : List UInt8) :
    List (ℕ × ℕ) → Option MultipartFile → Except Panic (Option MultipartFile)
  | [], fallback => pure fallback
  | (start, stop) :: pairs, fallback => do
    match ← between body (start + delimiter.length) stop with
    | .closing => pure fallback
    | .malformed => scanParts body delimiter pairs fallback
    | .part part =>
      match ← splitPart part with
      | none => scanParts body delimiter pairs fallback
      | some (raw, content) =>
        let headers := readHeaders raw
        let filename := dispositionParam headers.disposition "filename".toList
        let fieldName := dispositionParam headers.disposition "name".toList
        let file : MultipartFile := ⟨content, filename, headers.contentType⟩
        let named := fallback.isNone && fieldName == some "file".toList
        if filename.isSome then pure (some file)
        else scanParts body delimiter pairs (if named then some file else fallback)

def extractMultipartFile (body : List UInt8) (contentType : List Char) :
    Except Panic (Option MultipartFile) :=
  match multipartBoundary contentType with
  | none => pure none
  | some boundary => do
    let delimiter := utf8 ('-' :: '-' :: boundary)
    let starts ← positions body delimiter (body.length + 1) 0
    scanParts body delimiter (starts.zip starts.tail) none

end Multipart
