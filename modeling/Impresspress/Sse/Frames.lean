import Impresspress.Encoding.Utf8Stream
import Impresspress.Text.Lines
import Mathlib.Algebra.GroupWithZero.Nat

/-!
# Frames of an event stream

The transport half of a streamed answer: bytes arrive in feeds that may end anywhere, the text is
decoded as far as it is there, and every blank line ends a frame. A frame that grows beyond a limit
is dropped up to its blank line.

## Main definitions

* `Sse.SseFrameStream`: the parser with what it holds back.
* `Sse.SseFrameStream.feed`, `Sse.SseFrameStream.nextFrame`: feeding it, and taking the next frame.
* `Sse.SseFrameStream.run`: every feed, each followed by taking all frames there are.
-/

namespace Sse

open Text

structure SseFrame where
  event : Option (List Char)
  data : List Char
  deriving DecidableEq, Repr

structure FeedLoss where
  invalidUtf8 : Bool
  frameTooLarge : Bool
  deriving DecidableEq, Repr

def FeedLoss.any (loss : FeedLoss) : Bool := loss.invalidUtf8 || loss.frameTooLarge

/-- An assertion that does not hold, or an index out of bounds. -/
inductive Panic
  | assertion
  | outOfBounds
  deriving DecidableEq, Repr

def maxPendingFrameBytes : ℕ := 1024 * 1024

/-- The length of a text in bytes. -/
def size (text : List Char) : ℕ := (text.map Char.utf8Size).sum

/-- Indices into the text count its characters. -/
structure SseFrameStream where
  buf : List Char
  partialTail : List UInt8
  pendingCr : Bool
  droppingFrame : Bool
  dropFrom : ℕ

/-! ## Blank lines -/

/-- Where the first blank line stands: two line ends. -/
def findBlank : List Char → Option ℕ
  | [] => none
  | c :: text =>
    if c = '\n' ∧ text.head? = some '\n' then some 0 else (findBlank text).map (· + 1)

/-- Where the last one stands. -/
def rfindBlank : List Char → Option ℕ
  | [] => none
  | c :: text =>
    match rfindBlank text with
    | some i => some (i + 1)
    | none => if c = '\n' ∧ text.head? = some '\n' then some 0 else none

/-! ## Frames -/

def parseLine (frame : SseFrame) (line : List Char) : SseFrame :=
  let line := line.dropWhile (· = '\uFEFF')
  if "event:".toList.isPrefixOf line then
    { frame with event := some (trim (line.drop 6)) }
  else if "data:".toList.isPrefixOf line then
    { frame with data :=
        (if frame.data.isEmpty then [] else frame.data ++ ['\n']) ++ trimStart (line.drop 5) }
  else frame

def parseFrame (raw : List Char) : SseFrame := (lines raw).foldl parseLine ⟨none, []⟩

/-! ## The stream -/

namespace SseFrameStream

def new : SseFrameStream := ⟨[], [], false, false, 0⟩

def pushChar (s : SseFrameStream) (ch : Char) : SseFrameStream :=
  if ch = '\n' ∧ s.pendingCr then { s with pendingCr := false }
  else if ch = '\r' then { s with pendingCr := true, buf := s.buf ++ ['\n'] }
  else { s with pendingCr := false, buf := s.buf ++ [ch] }

def pushText (s : SseFrameStream) (text : List Char) : SseFrameStream :=
  if !s.pendingCr && !text.contains '\r' then { s with buf := s.buf ++ text }
  else text.foldl pushChar s

/-- Decoding the bytes there are; whether something was replaced. -/
def pushBytes (s : SseFrameStream) (rest : List UInt8) : SseFrameStream × Bool :=
  let read := Utf8.fromUtf8 rest
  let s := s.pushText read.1
  if read.2 = [] then (s, false)
  else
    match h : Utf8.errorLen read.2 with
    | none => ({ s with partialTail := read.2 }, false)
    | some n => ((pushBytes (s.pushText ['\uFFFD']) (read.2.drop n)).1, true)
termination_by rest.length
decreasing_by
  have hpos := Utf8.errorLen_pos h
  have hle := Utf8.length_fromUtf8_le rest
  have hne := List.length_pos_of_ne_nil ‹(Utf8.fromUtf8 rest).2 ≠ []›
  rw [List.length_drop]
  omega

def pendingFrameStart (s : SseFrameStream) : ℕ := (rfindBlank s.buf).elim 0 (· + 2)

def shrinkDroppedFrame (s : SseFrameStream) : SseFrameStream :=
  let keepFrom := s.buf.length - 1
  if s.dropFrom < keepFrom then { s with buf := s.buf.take s.dropFrom ++ s.buf.drop keepFrom }
  else s

/-- Bounding what is left behind the last blank line; whether a frame begins to be dropped. -/
def enforceFrameCap (s : SseFrameStream) : Except Panic (SseFrameStream × Bool) :=
  if s.droppingFrame then
    if s.buf.length < s.dropFrom then .error .outOfBounds
    else
      match findBlank (s.buf.drop s.dropFrom) with
      | some rel =>
        let stop := s.dropFrom + rel + 2
        .ok ({ s with buf := s.buf.take s.dropFrom ++ s.buf.drop stop, droppingFrame := false },
          false)
      | none => .ok (s.shrinkDroppedFrame, false)
  else
    let start := s.pendingFrameStart
    if size (s.buf.drop start) ≤ maxPendingFrameBytes then .ok (s, false)
    else .ok (shrinkDroppedFrame { s with dropFrom := start, droppingFrame := true }, true)

def feed (s : SseFrameStream) (bytes : List UInt8) : Except Panic (SseFrameStream × FeedLoss) := do
  let (s, invalid) := pushBytes { s with partialTail := [] } (s.partialTail ++ bytes)
  let (s, tooLarge) ← s.enforceFrameCap
  pure (s, ⟨invalid, tooLarge⟩)

def nextFrame (s : SseFrameStream) : Except Panic (SseFrameStream × Option SseFrame) :=
  match findBlank s.buf with
  | none => .ok (s, none)
  | some sep =>
    let frame := parseFrame (s.buf.take sep)
    let buf := s.buf.drop (sep + 2)
    if s.droppingFrame then
      if sep + 2 ≤ s.dropFrom then
        .ok ({ s with buf, dropFrom := s.dropFrom - (sep + 2) }, some frame)
      else .error .assertion
    else .ok ({ s with buf }, some frame)

def hasUnparsedInput (s : SseFrameStream) : Bool :=
  !s.partialTail.isEmpty || !(trim s.buf).isEmpty

/-- Taking frames as long as there are any; each takes two characters or more. -/
def drain : ℕ → SseFrameStream → Except Panic (SseFrameStream × List SseFrame)
  | 0, s => .ok (s, [])
  | fuel + 1, s => do
    let (s, frame) ← s.nextFrame
    match frame with
    | none => pure (s, [])
    | some frame =>
      let (s, frames) ← drain fuel s
      pure (s, frame :: frames)

structure Batch where
  loss : FeedLoss
  frames : List SseFrame

/-- Feeding and taking all frames there are. -/
def push (s : SseFrameStream) (bytes : List UInt8) : Except Panic (SseFrameStream × Batch) := do
  let (s, loss) ← s.feed bytes
  let (s, frames) ← s.drain (s.buf.length + 1)
  pure (s, ⟨loss, frames⟩)

def run (s : SseFrameStream) : List (List UInt8) → Except Panic (SseFrameStream × List Batch)
  | [] => .ok (s, [])
  | bytes :: feeds => do
    let (s, batch) ← s.push bytes
    let (s, batches) ← s.run feeds
    pure (s, batch :: batches)

end SseFrameStream

end Sse
