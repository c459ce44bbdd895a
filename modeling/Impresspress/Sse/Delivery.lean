import Impresspress.Sse.Pieces

/-!
# Which frames are delivered

Whatever the feeds are, the frames that are taken are those of the whole stream, but for the ones
that grew beyond the limit: where a feed ends, what stands behind the last blank line is measured,
and a piece that is too large is marked and never delivered.

## Main definitions

* `Sse.Pending`: what has been read and is not yet ended.
* `Sse.marked`: the pieces of all feeds, each with its mark.
* `Sse.Separated`: in front of a piece that is marked stands no line feed too many.

## Main results

* `Sse.Stands.push`: what a parser that stands at some point does with a feed.
* `Sse.Stands.run`: what it does with all feeds.
-/

namespace Sse

open Streaming
open Utf8 (decode Decoded)

/-! ## Marks -/

/-- What is not yet ended, and whether it was too large where a feed ended. -/
structure Pending where
  state : decoder.Rest × Bool × cutter.Rest
  overran : Bool

namespace Pending

def start : Pending := ⟨(decoder.nothing, false, cutter.nothing), false⟩

variable (p : Pending) (bytes : List UInt8)

/-- The bytes that are no character yet. -/
def held : List UInt8 := p.state.1.kept

/-- Whether the text ends in a carriage return. -/
def cr : Bool := p.state.2.1

/-- The text behind the last blank line. -/
def rest : List Char := p.state.2.2.kept

def decoded : Decoded := decode (p.held ++ bytes)

/-- What a feed adds, and whether it ends in a carriage return. -/
def added : List Char × Bool := lineReader.read p.cr (p.decoded bytes).text

/-- What is there to be cut. -/
def text : List Char := p.rest ++ (p.added bytes).1

def pieces : List (List Char) := (framer.read p.state bytes).1

/-- The pieces that the feed ends, with their marks. -/
def marked : List (List Char × Bool) :=
  match p.pieces bytes with
  | [] => []
  | piece :: pieces => (piece, p.overran) :: pieces.map (·, false)

/-- A piece is marked. Where a marked piece ends, the next one is not measured. -/
def reports : Bool := !p.overran && maxPendingFrameBytes < size (cut (p.text bytes)).2

def after : Pending where
  state := (framer.read p.state bytes).2
  overran := p.reports bytes || (p.overran && (p.pieces bytes).isEmpty)

/-- What a feed brings. -/
def batch : SseFrameStream.Batch where
  loss := ⟨(p.decoded bytes).invalid, p.reports bytes⟩
  frames := ((p.marked bytes).filter (!·.2)).map (parseFrame ·.1)

end Pending

/-- What is not yet ended before each feed. -/
def pendings : Pending → List (List UInt8) → List (Pending × List UInt8)
  | _, [] => []
  | p, bytes :: feeds => (p, bytes) :: pendings (p.after bytes) feeds

/-- All pieces, with their marks. -/
def marked (feeds : List (List UInt8)) : List (List Char × Bool) :=
  (pendings .start feeds).flatMap fun step => step.1.marked step.2

/-- A piece that is marked at the end of the feed that ended the one before it does not begin with
a line feed. -/
def Separated (feeds : List (List UInt8)) : Prop :=
  ∀ step ∈ pendings .start feeds, step.1.reports step.2 = true → step.1.pieces step.2 ≠ [] →
    (step.1.after step.2).rest.head? ≠ some '\n'

variable {text x y : List Char} {c : Char} {i : ℕ} {s : SseFrameStream} {p : Pending}
  {bytes : List UInt8} {feeds : List (List UInt8)}

namespace Pending

theorem pieces_eq (p : Pending) (bytes : List UInt8) :
    p.pieces bytes = (cut (p.text bytes)).1 := rfl

theorem rest_after (p : Pending) (bytes : List UInt8) :
    (p.after bytes).rest = (cut (p.text bytes)).2 := rfl

theorem overran_after (p : Pending) (bytes : List UInt8) : (p.after bytes).overran =
    (p.reports bytes || (p.overran && (p.pieces bytes).isEmpty)) := rfl

theorem findBlank_rest (p : Pending) : findBlank p.rest = none :=
  findBlank_eq_none_iff.mpr (congrArg Prod.fst p.state.2.2.unread)

end Pending

/-! ## Sizes -/

theorem size_append (x y : List Char) : size (x ++ y) = size x + size y := by
  rw [size, List.map_append, List.sum_append]
  rfl

theorem size_drop_le (n : ℕ) (text : List Char) : size (text.drop n) ≤ size text := by
  have h := size_append (text.take n) (text.drop n)
  rw [List.take_append_drop] at h
  omega

theorem size_le (text : List Char) : size text ≤ 4 * text.length := by
  induction text with
  | nil => exact Nat.le_refl 0
  | cons c text ih =>
    have hc := c.utf8Size_le_four
    rw [size, List.map_cons, List.sum_cons, List.length_cons]
    rw [size] at ih
    omega

/-! ## Reading a feed -/

theorem incomplete_of_errorLen {error : List UInt8} (h : Utf8.errorLen error = none) :
    Utf8.incomplete error = true := by
  unfold Utf8.errorLen at h
  split_ifs at h with hincomplete
  exact hincomplete

theorem errorLen_eq_some {error : List UInt8} {n : ℕ} (h : Utf8.errorLen error = some n) :
    Utf8.incomplete error = false ∧ n = Utf8.brokenLength error := by
  unfold Utf8.errorLen at h
  split_ifs at h with hincomplete
  exact ⟨Bool.eq_false_iff.mpr hincomplete, (Option.some.inj h).symm⟩

theorem findBlank_append_of_none (h : findBlank (x ++ [c]) = none) (y : List Char) :
    findBlank (x ++ c :: y) = (findBlank (c :: y)).map (· + x.length) := by
  induction x with
  | nil => simp
  | cons a x ih =>
    have hhead : (x ++ c :: y).head? = (x ++ [c]).head? := by cases x <;> rfl
    rw [List.cons_append, findBlank] at h ⊢
    rw [hhead]
    split_ifs at h with hblank
    rw [if_neg hblank, ih (Option.map_eq_none_iff.mp h), Option.map_map]
    rfl

/-- The ended pieces are those of the text in front of what is left. -/
theorem exists_ended (text : List Char) :
    ∃ ended, text = ended ++ (cut text).2 ∧ cut ended = ((cut text).1, []) := by
  induction text using cut.induct with
  | case1 => exact ⟨[], rfl, rfl⟩
  | case2 c => exact ⟨[], rfl, rfl⟩
  | case3 c d text hblank ih =>
    obtain ⟨ended, htext, hcut⟩ := ih
    refine ⟨c :: d :: ended, ?_, ?_⟩
    · rw [cut, if_pos hblank]
      exact congrArg (c :: d :: ·) htext
    · rw [cut, if_pos hblank, hcut, cut, if_pos hblank]
  | case4 c d text hblank ih =>
    obtain ⟨ended, htext, hcut⟩ := ih
    rw [cut, if_neg hblank]
    rcases hpieces : cut (d :: text) with ⟨_ | ⟨piece, pieces⟩, rest⟩
    · have hrest := cut_of_no_blank (findBlank_eq_none_iff.mpr (congrArg Prod.fst hpieces))
      rw [hpieces] at hrest
      obtain ⟨-, rfl⟩ := Prod.mk.inj hrest
      exact ⟨[], rfl, rfl⟩
    · rw [hpieces] at htext hcut
      rcases ended with _ | ⟨e, ended⟩
      · cases hcut
      · obtain ⟨rfl, -⟩ := List.cons.inj htext
        refine ⟨c :: d :: ended, congrArg (c :: ·) htext, ?_⟩
        rw [cut, if_neg hblank, hcut]
        rfl

namespace SseFrameStream

/-- A text is there, with its line ends as line feeds. -/
def withText (s : SseFrameStream) (text : List Char) : SseFrameStream :=
  { s with
    buf := s.buf ++ (lineReader.read s.pendingCr text).1
    pendingCr := (lineReader.read s.pendingCr text).2 }

theorem withText_nil (s : SseFrameStream) : s.withText [] = s := by
  rw [withText, lineReader.read_nil, List.append_nil]

theorem withText_append (s : SseFrameStream) (x y : List Char) :
    s.withText (x ++ y) = (s.withText x).withText y := by
  rw [withText, withText, withText, lineReader.read_append, List.append_assoc]

theorem pushChar_eq (s : SseFrameStream) (c : Char) : s.pushChar c = s.withText [c] := by
  rw [pushChar, withText, lineReader, Reader.ofStep_cons, Reader.ofStep_nil, lineEndStep]
  by_cases hfeed : c = '\n' ∧ s.pendingCr = true
  · rw [if_pos hfeed, if_pos hfeed]
    simp
  · rw [if_neg hfeed, if_neg hfeed]
    by_cases hreturn : c = '\r'
    · rw [if_pos hreturn, if_pos hreturn]
      rfl
    · rw [if_neg hreturn, if_neg hreturn]
      rfl

theorem foldl_pushChar (s : SseFrameStream) (text : List Char) :
    text.foldl pushChar s = s.withText text := by
  induction text generalizing s with
  | nil => exact s.withText_nil.symm
  | cons c text ih =>
    rw [List.foldl_cons, ih, pushChar_eq, ← withText_append, List.singleton_append]

/-- Without carriage returns a text stays as it is. -/
theorem lineReader_plain (h : '\r' ∉ text) : lineReader.read false text = (text, false) := by
  induction text with
  | nil => rfl
  | cons c text ih =>
    have hc : c ≠ '\r' := fun hc => h (hc ▸ List.mem_cons_self)
    have htail := ih fun hmem => h (List.mem_cons_of_mem c hmem)
    rw [lineReader] at htail ⊢
    rw [Reader.ofStep_cons, lineEndStep, if_neg fun hboth => Bool.false_ne_true hboth.2,
      if_neg hc, htail]
    rfl

theorem pushText_eq (s : SseFrameStream) (text : List Char) :
    s.pushText text = s.withText text := by
  unfold pushText
  split_ifs with hplain
  · obtain ⟨hcr, htext⟩ := Bool.and_eq_true_iff.mp hplain
    rw [Bool.not_eq_true'] at hcr htext
    rw [withText, hcr, lineReader_plain (by simpa using htext), ← hcr]
  · exact foldl_pushChar s text

theorem pushBytes_whole {bytes : List UInt8} (h : (Utf8.fromUtf8 bytes).2 = []) :
    s.pushBytes bytes = (s.withText (Utf8.fromUtf8 bytes).1, false) := by
  rw [pushBytes, pushText_eq]
  exact if_pos h

theorem pushBytes_held {bytes : List UInt8} (h : (Utf8.fromUtf8 bytes).2 ≠ [])
    (herror : Utf8.errorLen (Utf8.fromUtf8 bytes).2 = none) : s.pushBytes bytes =
      ({ s.withText (Utf8.fromUtf8 bytes).1 with
        partialTail := (Utf8.fromUtf8 bytes).2 }, false) := by
  rw [pushBytes, pushText_eq]
  refine (if_neg h).trans ?_
  split
  · rfl
  · rename_i hsome
    rw [herror] at hsome
    cases hsome

theorem pushBytes_broken {bytes : List UInt8} {n : ℕ} (h : (Utf8.fromUtf8 bytes).2 ≠ [])
    (herror : Utf8.errorLen (Utf8.fromUtf8 bytes).2 = some n) : s.pushBytes bytes =
      ((((s.withText (Utf8.fromUtf8 bytes).1).withText ['\uFFFD']).pushBytes
        ((Utf8.fromUtf8 bytes).2.drop n)).1, true) := by
  rw [pushBytes, pushText_eq]
  refine (if_neg h).trans ?_
  split
  · rename_i hnone
    rw [herror] at hnone
    cases hnone
  · rename_i hsome
    rw [herror] at hsome
    obtain rfl := Option.some.inj hsome
    rw [pushText_eq]

theorem pushBytes_eq (s : SseFrameStream) (bytes : List UInt8) (h : s.partialTail = []) :
    s.pushBytes bytes = ({ s.withText (decode bytes).text with
      partialTail := (decode bytes).held }, (decode bytes).invalid) := by
  induction hn : bytes.length using Nat.strongRecOn generalizing s bytes with
  | _ n ih =>
    have hdecode := Utf8.decode_eq bytes
    by_cases hwhole : (Utf8.fromUtf8 bytes).2 = []
    · rw [hwhole, decode] at hdecode
      rw [pushBytes_whole hwhole, hdecode]
      simp only [Decoded.append, List.append_nil, Bool.or_self, ← h]
      rfl
    cases herror : Utf8.errorLen (Utf8.fromUtf8 bytes).2 with
    | none =>
      rw [Utf8.decode_of_incomplete (Utf8.firstChar?_fromUtf8 bytes)
        (incomplete_of_errorLen herror)] at hdecode
      rw [pushBytes_held hwhole herror, hdecode]
      simp only [Decoded.append, List.append_nil, Bool.or_self]
    | some m =>
      obtain ⟨hbroken, rfl⟩ := errorLen_eq_some herror
      rw [Utf8.decode_of_broken hwhole (Utf8.firstChar?_fromUtf8 bytes) hbroken] at hdecode
      have hle := Utf8.length_fromUtf8_le bytes
      have hpos := Utf8.errorLen_pos herror
      have hne := List.length_pos_of_ne_nil hwhole
      have hrec := ih _ (by rw [List.length_drop]; omega)
        ((s.withText (Utf8.fromUtf8 bytes).1).withText ['\uFFFD'])
        ((Utf8.fromUtf8 bytes).2.drop (Utf8.brokenLength (Utf8.fromUtf8 bytes).2)) h rfl
      rw [pushBytes_broken hwhole herror, hrec, hdecode, ← withText_append, ← withText_append]
      simp only [Decoded.append, Bool.false_or, Bool.true_or]

/-! ## Taking frames -/

theorem nextFrame_eq {s : SseFrameStream} {ended rest : List Char}
    (hbuf : s.buf = ended ++ rest) (hblank : findBlank ended = some i)
    (hdrop : s.droppingFrame = true → s.dropFrom = ended.length) : s.nextFrame =
      .ok ({ s with
        buf := ended.drop (i + 2) ++ rest
        dropFrom := if s.droppingFrame then s.dropFrom - (i + 2) else s.dropFrom },
        some (parseFrame (ended.take i))) := by
  have hle := le_of_findBlank hblank
  rw [nextFrame, hbuf, findBlank_append hblank]
  simp only [List.take_append_of_le_length (Nat.le_of_add_right_le hle),
    List.drop_append_of_le_length hle]
  split_ifs with hdropping hfrom
  · rfl
  · exact absurd (hdrop hdropping ▸ hle) hfrom
  · rfl

/-- Taking all frames in front of what is not ended, where no frame is dropped before it. -/
theorem drain_eq {fuel : ℕ} {s : SseFrameStream} {ended rest : List Char}
    (hbuf : s.buf = ended ++ rest) (hended : (cut ended).2 = []) (hrest : findBlank rest = none)
    (hdrop : s.droppingFrame = true → s.dropFrom = ended.length) (hfuel : ended.length < fuel) :
    s.drain fuel = .ok ({ s with
      buf := rest
      dropFrom := if s.droppingFrame then 0 else s.dropFrom }, (cut ended).1.map parseFrame) := by
  induction fuel generalizing s ended with
  | zero => exact absurd hfuel (Nat.not_lt_zero _)
  | succ fuel ih =>
    rw [drain]
    cases hblank : findBlank ended with
    | none =>
      rw [cut_of_no_blank hblank] at hended
      have hnil : ended = [] := hended
      subst hnil
      have hfrom : (if s.droppingFrame then 0 else s.dropFrom) = s.dropFrom := by
        split_ifs with hdropping
        · exact (hdrop hdropping).symm
        · rfl
      rw [nextFrame, hbuf, List.nil_append, hrest, hfrom, ← List.nil_append rest, ← hbuf]
      rfl
    | some i =>
      have hle := le_of_findBlank hblank
      have hlength : (ended.drop (i + 2)).length < fuel := by
        rw [List.length_drop]
        omega
      rw [cut_of_findBlank hblank] at hended ⊢
      have htail := ih (s := { s with
        buf := ended.drop (i + 2) ++ rest
        dropFrom := if s.droppingFrame then s.dropFrom - (i + 2) else s.dropFrom }) rfl hended
        (fun hdropping => by
          rw [List.length_drop, ← hdrop hdropping]
          exact if_pos hdropping) hlength
      rw [nextFrame_eq hbuf hblank hdrop]
      simp only [bind, Except.bind] at htail ⊢
      rw [htail]
      cases hdropping : s.droppingFrame <;> rfl

end SseFrameStream

/-! ## Where a parser stands -/

/-- A parser has read as far as this. Of a piece that it drops the last character is there. -/
structure Stands (s : SseFrameStream) (p : Pending) : Prop where
  partialTail : s.partialTail = p.held
  pendingCr : s.pendingCr = p.cr
  droppingFrame : s.droppingFrame = p.overran
  whole : p.overran = false → s.buf = p.rest
  dropped : p.overran = true → s.dropFrom = 0 ∧ ∃ x c, p.rest = x ++ [c] ∧ s.buf = [c]

theorem frames_whole (h : p.overran = false) :
    (p.batch bytes).frames = (p.pieces bytes).map parseFrame := by
  unfold Pending.batch Pending.marked
  cases p.pieces bytes with
  | nil => rfl
  | cons piece pieces => simp [h, List.filter_map, Function.comp_def]

theorem frames_dropped {piece : List Char} {pieces : List (List Char)} (h : p.overran = true)
    (hpieces : p.pieces bytes = piece :: pieces) :
    (p.batch bytes).frames = pieces.map parseFrame := by
  unfold Pending.batch Pending.marked
  rw [hpieces]
  simp [h, List.filter_map, Function.comp_def]

/-- The bytes of a feed are read. -/
def SseFrameStream.reading (s : SseFrameStream) (p : Pending) (bytes : List UInt8) :
    SseFrameStream :=
  { s with
    buf := s.buf ++ (p.added bytes).1
    pendingCr := (p.added bytes).2
    partialTail := (p.decoded bytes).held }

/-- What the limit leaves: the frames to be taken, and what is not ended. -/
def Leaves (s' : SseFrameStream) (p : Pending) (bytes : List UInt8) : Prop :=
  ∃ ended rest, s'.buf = ended ++ rest ∧ (cut ended).2 = [] ∧ findBlank rest = none ∧
    (s'.droppingFrame = true → s'.dropFrom = ended.length) ∧
    (cut ended).1.map parseFrame = (p.batch bytes).frames ∧
    Stands { s' with buf := rest, dropFrom := if s'.droppingFrame then 0 else s'.dropFrom }
      (p.after bytes)

theorem buf_reading (bytes : List UInt8) (hs : Stands s p) (hoverran : p.overran = false) :
    (s.reading p bytes).buf = p.text bytes :=
  congrArg (· ++ (p.added bytes).1) (hs.whole hoverran)

theorem drop_start_le (h : rfindBlank text = some i) :
    size (text.drop (i + 2)) ≤ size (cut text).2 := by
  obtain ⟨-, -, hrest | hrest⟩ := rest_of_last h
  · rw [hrest]
  · rw [hrest, ← List.singleton_append, size_append]
    omega

/-- Where nothing is dropped and what is not ended is small enough, nothing is. -/
theorem Stands.cap_small (hs : Stands s p) (hoverran : p.overran = false)
    (hsmall : size (cut (p.text bytes)).2 ≤ maxPendingFrameBytes) :
    (s.reading p bytes).enforceFrameCap = .ok (s.reading p bytes, false) ∧
      Leaves (s.reading p bytes) p bytes := by
  have hbuf := buf_reading bytes hs hoverran
  have hdropping : (s.reading p bytes).droppingFrame = false := hs.droppingFrame.trans hoverran
  have hstart : size ((p.text bytes).drop (s.reading p bytes).pendingFrameStart) ≤
      maxPendingFrameBytes := by
    rw [SseFrameStream.pendingFrameStart, hbuf]
    cases hlast : rfindBlank (p.text bytes) with
    | none => rwa [cut_of_no_last hlast] at hsmall
    | some i => exact (drop_start_le hlast).trans hsmall
  have hafter : (p.after bytes).overran = false := by
    rw [Pending.overran_after, Pending.reports, hoverran, decide_eq_false (Nat.not_lt_of_le hsmall)]
    rfl
  obtain ⟨ended, htext, hended⟩ := exists_ended (p.text bytes)
  refine ⟨?_, ended, _, hbuf.trans htext, congrArg Prod.snd hended,
    (p.after bytes).findBlank_rest, ?_, ?_, ?_⟩
  · rw [SseFrameStream.enforceFrameCap, hdropping, hbuf]
    simp only [Bool.false_eq_true, if_false]
    exact if_pos hstart
  · rw [hdropping]
    exact fun h => absurd h Bool.false_ne_true
  · rw [hended, frames_whole hoverran, Pending.pieces_eq]
  · exact ⟨rfl, rfl, hdropping.trans hafter.symm, fun _ => rfl,
      fun h => absurd (hafter ▸ h) Bool.false_ne_true⟩

/-- Of a dropped frame the last character stays. -/
theorem shrink_eq {s : SseFrameStream} (hbuf : s.buf = x ++ (y ++ [c]))
    (hdrop : s.dropFrom = x.length) : s.shrinkDroppedFrame = { s with buf := x ++ [c] } := by
  have hkeep : s.buf.length - 1 = x.length + y.length := by
    rw [hbuf, List.length_append, List.length_append, List.length_singleton]
    omega
  have hlast : s.buf.drop (x.length + y.length) = [c] := by
    rw [hbuf, ← List.append_assoc, ← List.length_append]
    exact List.drop_left
  rw [SseFrameStream.shrinkDroppedFrame]
  simp only [hkeep, hlast, hdrop]
  split_ifs with hlt
  · rw [hbuf, List.take_left]
  · obtain rfl := List.eq_nil_of_length_eq_zero (show y.length = 0 by omega)
    rw [List.nil_append] at hbuf
    rw [← hbuf, ← hdrop]

theorem exists_last {n : ℕ} (h : n < size text) : ∃ x c, text = x ++ [c] := by
  rcases List.eq_nil_or_concat text with rfl | ⟨x, c, rfl⟩
  · exact absurd h (Nat.not_lt_zero _)
  · exact ⟨x, c, List.concat_eq_append⟩

/-- Where nothing is dropped and what is not ended is too large, it is dropped. -/
theorem Stands.cap_large (hs : Stands s p) (hoverran : p.overran = false)
    (hlarge : maxPendingFrameBytes < size (cut (p.text bytes)).2)
    (hseparated : p.pieces bytes ≠ [] → (cut (p.text bytes)).2.head? ≠ some '\n') :
    ∃ s', (s.reading p bytes).enforceFrameCap = .ok (s', true) ∧ Leaves s' p bytes := by
  have hbuf := buf_reading bytes hs hoverran
  have hdropping : (s.reading p bytes).droppingFrame = false := hs.droppingFrame.trans hoverran
  obtain ⟨ended, htext, hended⟩ := exists_ended (p.text bytes)
  have hlength : ended.length + (cut (p.text bytes)).2.length = (p.text bytes).length := by
    rw [← List.length_append, ← htext]
  have hstart : (s.reading p bytes).pendingFrameStart = ended.length := by
    rw [SseFrameStream.pendingFrameStart, hbuf]
    cases hlast : rfindBlank (p.text bytes) with
    | none =>
      rw [cut_of_no_last hlast] at hlength
      exact (Nat.add_eq_right.mp hlength).symm
    | some i =>
      obtain ⟨hle, hne, hrest | hrest⟩ := rest_of_last hlast
      · rw [hrest, List.length_drop] at hlength
        change i + 2 = ended.length
        omega
      · exact absurd (by rw [hrest]; rfl) (hseparated hne)
  have hdrop : (p.text bytes).drop ended.length = (cut (p.text bytes)).2 := by
    conv_lhs => rw [htext]
    exact List.drop_left
  obtain ⟨x, c, hrest⟩ := exists_last hlarge
  have hafter : (p.after bytes).overran = true := by
    rw [Pending.overran_after, Pending.reports, hoverran, decide_eq_true hlarge]
    rfl
  refine ⟨{ s.reading p bytes with
    buf := ended ++ [c], dropFrom := ended.length, droppingFrame := true }, ?_,
    ended, [c], rfl, congrArg Prod.snd hended, by simp [findBlank], fun _ => rfl, ?_, ?_⟩
  · rw [SseFrameStream.enforceFrameCap, hdropping, hstart, hbuf]
    simp only [Bool.false_eq_true, if_false, hdrop, if_neg (Nat.not_le_of_lt hlarge)]
    rw [shrink_eq (htext.trans (congrArg (ended ++ ·) hrest)) rfl]
  · rw [hended, frames_whole hoverran, Pending.pieces_eq]
  · exact ⟨rfl, rfl, hafter.symm, fun h => absurd (hafter ▸ h) (by decide),
      fun _ => ⟨rfl, x, c, hrest, rfl⟩⟩

/-- A dropped frame is dropped up to its blank line. -/
theorem Stands.cap_dropping (hs : Stands s p) (hoverran : p.overran = true) :
    ∃ s', (s.reading p bytes).enforceFrameCap = .ok (s', false) ∧ Leaves s' p bytes := by
  obtain ⟨hfrom, x, c, hrest, hbuf⟩ := hs.dropped hoverran
  have hdropping : (s.reading p bytes).droppingFrame = true := hs.droppingFrame.trans hoverran
  have hzero : (s.reading p bytes).dropFrom = 0 := hfrom
  have hreading : (s.reading p bytes).buf = c :: (p.added bytes).1 := by
    rw [SseFrameStream.reading, hbuf]
    rfl
  have htext : p.text bytes = x ++ c :: (p.added bytes).1 := by
    rw [Pending.text, hrest, List.append_assoc]
    rfl
  have hblank := findBlank_append_of_none (hrest ▸ p.findBlank_rest) (p.added bytes).1
  rw [← htext] at hblank
  cases hfind : findBlank (c :: (p.added bytes).1) with
  | none =>
    have hcap : (s.reading p bytes).enforceFrameCap =
        .ok ((s.reading p bytes).shrinkDroppedFrame, false) := by
      rw [SseFrameStream.enforceFrameCap, hdropping, hreading, hzero]
      simp only [hfind, if_true, Nat.not_lt_zero, if_false, List.drop_zero]
    rw [hfind] at hblank
    have hcut := cut_of_no_blank hblank
    obtain ⟨y, d, hlast⟩ : ∃ y d, c :: (p.added bytes).1 = y ++ [d] :=
      (List.eq_nil_or_concat _).resolve_left (List.cons_ne_nil _ _) |>.imp fun y h => h.imp
        fun d h => h.trans List.concat_eq_append
    have hpieces : p.pieces bytes = [] := congrArg Prod.fst hcut
    have hafter : (p.after bytes).overran = true := by
      rw [Pending.overran_after, hoverran, hpieces]
      exact Bool.or_true _
    have hshrink := shrink_eq (s := s.reading p bytes) (x := []) (hreading.trans hlast) hzero
    refine ⟨_, hcap, [], [d], by rw [hshrink], rfl, by simp [findBlank], ?_, ?_, ?_⟩
    · exact fun _ => by rw [hshrink]; exact hzero
    · unfold Pending.batch Pending.marked
      rw [hpieces]
      rfl
    · rw [hshrink]
      refine ⟨rfl, rfl, hdropping.trans hafter.symm,
        fun h => absurd (hafter ▸ h) (by decide), fun _ => ⟨if_pos hdropping, x ++ y, d, ?_, rfl⟩⟩
      rw [Pending.rest_after, hcut, htext, hlast, List.append_assoc]
  | some rel =>
    have hcap : (s.reading p bytes).enforceFrameCap = .ok ({ s.reading p bytes with
        buf := (c :: (p.added bytes).1).drop (rel + 2), droppingFrame := false, dropFrom := 0 },
        false) := by
      rw [SseFrameStream.enforceFrameCap, hdropping, hreading, hzero]
      simp only [hfind, if_true, Nat.not_lt_zero, if_false, List.drop_zero, List.take_zero,
        List.nil_append, Nat.zero_add]
    rw [hfind] at hblank
    have hcut := cut_of_findBlank hblank
    have hdrop : (p.text bytes).drop (rel + x.length + 2) =
        (c :: (p.added bytes).1).drop (rel + 2) := by
      rw [htext, Nat.add_right_comm, Nat.add_comm, ← List.drop_drop, List.drop_left]
    rw [hdrop] at hcut
    obtain ⟨ended, hended, hpieces⟩ := exists_ended ((c :: (p.added bytes).1).drop (rel + 2))
    have hafter : (p.after bytes).overran = false := by
      rw [Pending.overran_after, Pending.reports, hoverran, Pending.pieces_eq, hcut]
      rfl
    refine ⟨_, hcap, ended, _, hended, congrArg Prod.snd hpieces, findBlank_unended _,
      fun h => absurd h Bool.false_ne_true, ?_, ?_⟩
    · rw [frames_dropped hoverran (congrArg Prod.fst hcut), hpieces]
    · refine ⟨rfl, rfl, hafter.symm, fun _ => ?_,
        fun h => absurd (hafter ▸ h) Bool.false_ne_true⟩
      rw [Pending.rest_after, hcut]

theorem Stands.push (hs : Stands s p)
    (hseparated : p.reports bytes = true → p.pieces bytes ≠ [] →
      (p.after bytes).rest.head? ≠ some '\n') :
    ∃ s', s.push bytes = .ok (s', p.batch bytes) ∧ Stands s' (p.after bytes) := by
  have hcap : ∃ s', (s.reading p bytes).enforceFrameCap = .ok (s', p.reports bytes) ∧
      Leaves s' p bytes := by
    cases hoverran : p.overran with
    | true =>
      have hreports : p.reports bytes = false := by rw [Pending.reports, hoverran]; rfl
      rw [hreports]
      exact hs.cap_dropping hoverran
    | false =>
      by_cases hlarge : maxPendingFrameBytes < size (cut (p.text bytes)).2
      · have hreports : p.reports bytes = true := by
          rw [Pending.reports, hoverran, decide_eq_true hlarge]
          rfl
        rw [hreports]
        exact hs.cap_large hoverran hlarge (hseparated hreports)
      · have hreports : p.reports bytes = false := by
          rw [Pending.reports, hoverran, decide_eq_false hlarge]
          rfl
        rw [hreports]
        exact ⟨_, hs.cap_small hoverran (Nat.le_of_not_lt hlarge)⟩
  obtain ⟨s', hcap, ended, rest, hbuf, hended, hrest, hdrop, hframes, hstands⟩ := hcap
  have hbytes : SseFrameStream.pushBytes { s with partialTail := [] } (s.partialTail ++ bytes) =
      (s.reading p bytes, (p.decoded bytes).invalid) := by
    rw [SseFrameStream.pushBytes_eq _ _ rfl, hs.partialTail]
    simp only [SseFrameStream.withText, hs.pendingCr]
    rfl
  have hfeed : s.feed bytes = .ok (s', ⟨(p.decoded bytes).invalid, p.reports bytes⟩) := by
    rw [SseFrameStream.feed, hbytes]
    simp only [hcap, bind, Except.bind]
    rfl
  have hfuel : ended.length < s'.buf.length + 1 := by
    rw [hbuf, List.length_append]
    omega
  refine ⟨_, ?_, hstands⟩
  rw [SseFrameStream.push, hfeed]
  simp only [bind, Except.bind, SseFrameStream.drain_eq hbuf hended hrest hdrop hfuel, hframes]
  rfl

/-! ## All feeds -/

def Pending.afterFeeds (p : Pending) (feeds : List (List UInt8)) : Pending :=
  feeds.foldl Pending.after p

theorem Stands.run (hs : Stands s p) (hseparated : ∀ step ∈ pendings p feeds,
      step.1.reports step.2 = true → step.1.pieces step.2 ≠ [] →
        (step.1.after step.2).rest.head? ≠ some '\n') :
    ∃ s', s.run feeds = .ok (s', (pendings p feeds).map fun step => step.1.batch step.2) ∧
      Stands s' (p.afterFeeds feeds) := by
  induction feeds generalizing s p with
  | nil => exact ⟨s, rfl, hs⟩
  | cons bytes feeds ih =>
    obtain ⟨s₁, hpush, hs₁⟩ := hs.push (hseparated _ List.mem_cons_self)
    obtain ⟨s₂, hrun, hs₂⟩ := ih hs₁ fun step hstep =>
      hseparated step (List.mem_cons_of_mem _ hstep)
    refine ⟨s₂, ?_, hs₂⟩
    rw [SseFrameStream.run]
    simp only [hpush, hrun, bind, Except.bind]
    rfl

theorem stands_new : Stands .new .start where
  partialTail := rfl
  pendingCr := rfl
  droppingFrame := rfl
  whole _ := rfl
  dropped h := absurd h Bool.false_ne_true

end Sse
