import Impresspress.Sse.Delivery

/-!
# The frames of all feeds

The pieces of all feeds are those of the whole stream, each marked one is reported once, and what is
held back is bounded by the limit and the last feed.

## Main definitions

* `Sse.Small`: where a feed ends, the text behind the last blank line is not too large.

## Main results

* `Sse.delivers_unmarked`: the frames of all feeds are the unmarked pieces.
* `Sse.frames_of_stream`: without a piece that is too large, they are those of the stream.
-/

namespace Sse

open Streaming
open Utf8 (decode Decoded)

variable {text x y : List Char} {i : ℕ} {s : SseFrameStream} {p : Pending}
  {feeds : List (List UInt8)}

/-! ## Pieces and reports -/

theorem pieces_pendings (p : Pending) (feeds : List (List UInt8)) :
    (pendings p feeds).map (fun step => step.1.pieces step.2) =
      (framer.pieces p.state feeds).1 := by
  induction feeds generalizing p with
  | nil => rfl
  | cons bytes feeds ih => exact congrArg (p.pieces bytes :: ·) (ih (p.after bytes))

theorem state_afterFeeds (p : Pending) (feeds : List (List UInt8)) :
    (p.afterFeeds feeds).state = (framer.read p.state feeds.flatten).2 := by
  rw [← framer.flatten_pieces]
  induction feeds generalizing p with
  | nil => rfl
  | cons bytes feeds ih => exact ih (p.after bytes)

theorem fst_marked (p : Pending) (bytes : List UInt8) :
    (p.marked bytes).map (·.1) = p.pieces bytes := by
  unfold Pending.marked
  cases p.pieces bytes with
  | nil => rfl
  | cons piece pieces => simp [Function.comp_def]

/-- The pieces of all feeds are those of the whole stream. -/
theorem fst_marked_feeds (feeds : List (List UInt8)) :
    (marked feeds).map (·.1) = (cut (lineEnds (decode feeds.flatten).text)).1 := by
  have hpieces := pieces_pendings .start feeds
  have hflatten := congrArg Prod.fst (framer.flatten_pieces Pending.start.state feeds)
  rw [marked, List.map_flatMap]
  simp only [fst_marked]
  rw [List.flatMap_def, hpieces]
  exact hflatten.trans (congrArg Prod.fst (framer_start feeds.flatten))

theorem frames_pendings (p : Pending) (feeds : List (List UInt8)) :
    ((pendings p feeds).map fun step => step.1.batch step.2).flatMap (·.frames) =
      (((pendings p feeds).flatMap fun step => step.1.marked step.2).filter (!·.2)).map
        (parseFrame ·.1) := by
  rw [List.flatMap_map, List.filter_flatMap, List.map_flatMap]
  rfl

/-- Every marked piece is reported once. -/
theorem count_reports (p : Pending) (feeds : List (List UInt8)) :
    (pendings p feeds).countP (fun step => step.1.reports step.2) + p.overran.toNat =
      ((pendings p feeds).flatMap fun step => step.1.marked step.2).countP (·.2) +
        (p.afterFeeds feeds).overran.toNat := by
  induction feeds generalizing p with
  | nil => rfl
  | cons bytes feeds ih =>
    have hstep : (p.reports bytes).toNat + p.overran.toNat =
        (p.marked bytes).countP (·.2) + (p.after bytes).overran.toNat := by
      rw [Pending.overran_after, Pending.marked, Pending.reports]
      cases p.overran <;> cases p.pieces bytes <;> simp [List.countP_map, Function.comp_def]
    have htail := ih (p.after bytes)
    have hcons : (pendings p (bytes :: feeds)).countP (fun step => step.1.reports step.2) =
        (pendings (p.after bytes) feeds).countP (fun step => step.1.reports step.2) +
          (p.reports bytes).toNat := by
      rw [pendings, List.countP_cons]
      cases p.reports bytes <;> rfl
    have hmarked : ((pendings p (bytes :: feeds)).flatMap fun step => step.1.marked step.2) =
        p.marked bytes ++ (pendings (p.after bytes) feeds).flatMap fun step =>
          step.1.marked step.2 := rfl
    have hlast : p.afterFeeds (bytes :: feeds) = (p.after bytes).afterFeeds feeds := rfl
    rw [hcons, hmarked, List.countP_append, hlast]
    omega

/-- What was replaced is in the text. -/
theorem invalid_of_no_text (bytes : List UInt8) (h : (decode bytes).text = []) :
    (decode bytes).invalid = false := by
  induction bytes using Utf8.decode.induct with
  | case1 => rw [decode]
  | case2 b rest c hfirst ih =>
    rw [Utf8.decode_of_some hfirst] at h
    cases h
  | case3 b rest hfirst hincomplete => rw [Utf8.decode_of_incomplete hfirst hincomplete]
  | case4 b rest hfirst hincomplete ih =>
    rw [Utf8.decode_of_broken (List.cons_ne_nil _ _) hfirst (Bool.not_eq_true _ ▸ hincomplete)] at h
    cases h

/-- A feed reports what was replaced in it. -/
theorem any_invalid (p : Pending) (feeds : List (List UInt8)) :
    (pendings p feeds).any (fun step => (step.1.decoded step.2).invalid) =
      (decode (p.held ++ feeds.flatten)).invalid := by
  induction feeds generalizing p with
  | nil =>
    have hheld := invalid_of_no_text p.held (congrArg Prod.fst p.state.1.unread)
    rw [List.flatten_nil, List.append_nil, hheld]
    rfl
  | cons bytes feeds ih =>
    rw [pendings, List.any_cons, ih, List.flatten_cons, ← List.append_assoc,
      Utf8.decode_append (p.held ++ bytes)]
    rfl

/-! ## What is held back -/

theorem size_lineReader_le (cr : Bool) (text : List Char) :
    size (lineReader.read cr text).1 ≤ size text := by
  induction text generalizing cr with
  | nil => exact Nat.le_refl 0
  | cons c text ih =>
    have hstep : size (lineEndStep cr c).1 ≤ size [c] := by
      unfold lineEndStep
      split_ifs with hfeed hreturn
      · exact Nat.zero_le _
      · rw [hreturn]
        exact Nat.le_refl 1
      · exact Nat.le_refl _
    rw [lineReader, Reader.ofStep_cons, size_append, ← List.singleton_append, size_append]
    exact Nat.add_le_add hstep (ih _)

theorem size_decode_le (bytes : List UInt8) : size (decode bytes).text ≤ 3 * bytes.length := by
  induction bytes using Utf8.decode.induct with
  | case1 =>
    rw [decode]
    exact Nat.le_refl 0
  | case2 b rest c hfirst ih =>
    have hle : c.utf8Size ≤ (b :: rest).length := by
      obtain ⟨rest', hrest⟩ := Utf8.exists_of_firstChar? hfirst
      rw [hrest, List.length_append, String.length_utf8EncodeChar]
      exact Nat.le_add_right _ _
    have hsize : size [c] = c.utf8Size := List.sum_singleton
    rw [List.length_drop] at ih
    rw [Utf8.decode_of_some hfirst, Decoded.append, size_append, hsize]
    omega
  | case3 b rest hfirst hincomplete =>
    rw [Utf8.decode_of_incomplete hfirst hincomplete]
    exact Nat.zero_le _
  | case4 b rest hfirst hincomplete ih =>
    have hpos := Utf8.brokenLength_pos (b :: rest)
    have hle := Utf8.brokenLength_le (List.cons_ne_nil b rest)
    have hsize : size ['\uFFFD'] = 3 := rfl
    rw [List.length_drop] at ih
    rw [Utf8.decode_of_broken (List.cons_ne_nil _ _) hfirst (Bool.not_eq_true _ ▸ hincomplete),
      Decoded.append, size_append, hsize]
    omega

theorem Pending.length_held_le (p : Pending) : p.held.length ≤ 3 := by
  have hheld : (decode p.held).held = p.held := congrArg Prod.snd p.state.1.unread
  rw [← hheld]
  exact Utf8.length_held_le p.held

theorem size_added_le (p : Pending) (bytes : List UInt8) :
    size (p.added bytes).1 ≤ 3 * (bytes.length + 3) := by
  have hlines := size_lineReader_le p.cr (p.decoded bytes).text
  have htext := size_decode_le (p.held ++ bytes)
  have hheld := p.length_held_le
  rw [List.length_append] at htext
  exact (hlines.trans htext).trans (by omega)

/-- The first blank line of a text ends behind a beginning without one. -/
theorem lt_of_findBlank_append (hx : findBlank x = none) (h : findBlank (x ++ y) = some i) :
    x.length < i + 2 := by
  induction x generalizing i with
  | nil => exact Nat.succ_pos _
  | cons c x ih =>
    rw [findBlank] at hx
    rw [List.cons_append, findBlank] at h
    split_ifs at hx with hblank
    split_ifs at h with hblank'
    · obtain rfl := Option.some.inj h
      rcases x with _ | ⟨d, x⟩
      · exact Nat.lt_succ_self 1
      · exact absurd hblank' hblank
    · obtain ⟨j, hj, rfl⟩ := Option.map_eq_some_iff.mp h
      exact Nat.succ_lt_succ (ih (Option.map_eq_none_iff.mp hx) hj)

theorem size_unended_le (text : List Char) : size (cut text).2 ≤ size text := by
  obtain ⟨ended, htext, -⟩ := exists_ended text
  conv_rhs => rw [htext]
  rw [size_append]
  exact Nat.le_add_left _ _

theorem size_rest_le (p : Pending) (bytes : List UInt8) (h : (p.after bytes).overran = false) :
    size (p.after bytes).rest ≤ max maxPendingFrameBytes (size (p.added bytes).1) := by
  rw [Pending.overran_after, Bool.or_eq_false_iff] at h
  obtain ⟨hreports, hpieces⟩ := h
  rw [Pending.rest_after]
  cases hoverran : p.overran with
  | false =>
    rw [Pending.reports, hoverran] at hreports
    exact (Nat.le_of_not_lt (of_decide_eq_false hreports)).trans (Nat.le_max_left _ _)
  | true =>
    rw [hoverran, Pending.pieces_eq, Bool.true_and] at hpieces
    refine Nat.le_trans ?_ (Nat.le_max_right _ _)
    cases hblank : findBlank (p.text bytes) with
    | none =>
      rw [findBlank_eq_none_iff.mp hblank] at hpieces
      cases hpieces
    | some i =>
      have hlt := lt_of_findBlank_append p.findBlank_rest hblank
      have hdrop : (p.text bytes).drop (i + 2) =
          (p.added bytes).1.drop (i + 2 - p.rest.length) := by
        rw [Pending.text, List.drop_append, List.drop_eq_nil_of_le (Nat.le_of_lt hlt),
          List.nil_append]
      rw [cut_of_findBlank hblank, hdrop]
      exact (size_unended_le _).trans (size_drop_le _ _)

/-- A parser holds back no more than the limit, or the last feed. -/
theorem Stands.size_buf_le {n : ℕ} (hs : Stands s (p.afterFeeds feeds))
    (hn : ∀ bytes ∈ feeds, bytes.length ≤ n) (hstart : size p.rest ≤ maxPendingFrameBytes) :
    size s.buf ≤ max maxPendingFrameBytes (3 * (n + 3)) := by
  cases hoverran : (p.afterFeeds feeds).overran with
  | true =>
    obtain ⟨-, x, c, -, hbuf⟩ := hs.dropped hoverran
    rw [hbuf]
    have hone := size_le [c]
    have hlimit : 4 ≤ maxPendingFrameBytes := by decide
    rw [List.length_singleton] at hone
    omega
  | false =>
    rw [hs.whole hoverran]
    rcases List.eq_nil_or_concat feeds with rfl | ⟨init, bytes, rfl⟩
    · exact hstart.trans (Nat.le_max_left _ _)
    · rw [List.concat_eq_append] at hn hoverran ⊢
      have hlast : p.afterFeeds (init ++ [bytes]) = (p.afterFeeds init).after bytes :=
        List.foldl_append ..
      rw [hlast] at hoverran ⊢
      have hbytes := hn bytes (List.mem_append_right _ List.mem_cons_self)
      have hadded := size_added_le (p.afterFeeds init) bytes
      have hrest := size_rest_le _ _ hoverran
      omega

/-! ## Main results -/

/-- Where the text behind the last blank line is never too large, nothing is marked. -/
theorem unmarked_of_small (hoverran : p.overran = false)
    (hsmall : ∀ n, size (framer.read p.state (feeds.take n).flatten).2.2.2.kept ≤
      maxPendingFrameBytes) :
    (p.afterFeeds feeds).overran = false ∧
      ∀ step ∈ pendings p feeds, step.1.overran = false ∧ step.1.reports step.2 = false := by
  induction feeds generalizing p with
  | nil => exact ⟨hoverran, by simp [pendings]⟩
  | cons bytes feeds ih =>
    have hfirst : size (cut (p.text bytes)).2 ≤ maxPendingFrameBytes := by
      have hone := hsmall 1
      rw [List.take_one, List.head?_cons, Option.toList_some, List.flatten_singleton] at hone
      exact hone
    have hreports : p.reports bytes = false := by
      rw [Pending.reports, decide_eq_false (Nat.not_lt_of_le hfirst), Bool.and_false]
    have hafter : (p.after bytes).overran = false := by
      rw [Pending.overran_after, hreports, hoverran]
      rfl
    obtain ⟨hlast, hsteps⟩ := ih hafter fun n => by
      have hnext := hsmall (n + 1)
      rw [List.take_succ_cons, List.flatten_cons, framer.read_append] at hnext
      exact hnext
    refine ⟨hlast, fun step hstep => ?_⟩
    rcases List.mem_cons.mp hstep with rfl | htail
    · exact ⟨hoverran, hreports⟩
    · exact hsteps step htail

/-- Where a feed ends, the text behind the last blank line is not too large. -/
def Small (feeds : List (List UInt8)) : Prop :=
  ∀ n, size (unended (feeds.take n).flatten) ≤ maxPendingFrameBytes

theorem Small.unmarked (hsmall : Small feeds) : (Pending.start.afterFeeds feeds).overran = false ∧
    ∀ step ∈ pendings .start feeds, step.1.overran = false ∧ step.1.reports step.2 = false :=
  unmarked_of_small rfl fun n => by
    have hstate := congrArg Prod.snd (framer_start (feeds.take n).flatten)
    exact (Nat.le_of_eq (congrArg size hstate)).trans (hsmall n)

theorem Small.frames (hsmall : Small feeds) :
    ((pendings .start feeds).map fun step => step.1.batch step.2).flatMap (·.frames) =
      framesOf feeds.flatten := by
  have hframes : ∀ step ∈ pendings .start feeds,
      (step.1.batch step.2).frames = (step.1.pieces step.2).map parseFrame :=
    fun step hstep => frames_whole (hsmall.unmarked.2 step hstep).1
  have hpieces : (marked feeds).map (·.1) =
      (pendings .start feeds).flatMap fun step => step.1.pieces step.2 := by
    rw [marked, List.map_flatMap]
    exact List.flatMap_congr fun step _ => fst_marked step.1 step.2
  rw [List.flatMap_map, List.flatMap_congr hframes, ← List.map_flatMap, ← hpieces,
    fst_marked_feeds, framesOf]

/-- The frames of a stream are delivered, however it is cut, and nothing is lost. -/
theorem frames_of_stream (feeds : List (List UInt8)) (hsmall : Small feeds) :
    ∃ s batches, SseFrameStream.new.run feeds = .ok (s, batches) ∧
      batches.flatMap (·.frames) = framesOf feeds.flatten ∧
      (∀ batch ∈ batches, batch.loss.frameTooLarge = false) ∧
      batches.any (·.loss.invalidUtf8) = (decode feeds.flatten).invalid ∧
      s.buf = unended feeds.flatten ∧ s.partialTail = (decode feeds.flatten).held ∧
      s.partialTail.length ≤ 3 := by
  obtain ⟨hlast, hsteps⟩ := hsmall.unmarked
  obtain ⟨s, hrun, hs⟩ := stands_new.run fun step hstep hreports => by
    rw [(hsteps step hstep).2] at hreports
    cases hreports
  have hafter := state_afterFeeds .start feeds
  refine ⟨s, _, hrun, hsmall.frames, ?_, ?_, ?_, ?_, ?_⟩
  · intro batch hbatch
    obtain ⟨step, hstep, rfl⟩ := List.mem_map.mp hbatch
    exact (hsteps step hstep).2
  · rw [List.any_map]
    exact any_invalid .start feeds
  · rw [hs.whole hlast, Pending.rest, hafter]
    exact congrArg Prod.snd (framer_start feeds.flatten)
  · rw [hs.partialTail, Pending.held, hafter]
    rfl
  · rw [hs.partialTail]
    exact Pending.length_held_le _

/-- A short stream has nothing that is too large. -/
theorem size_unended_take (feeds : List (List UInt8)) (n : ℕ) :
    size (unended (feeds.take n).flatten) ≤ 3 * feeds.flatten.length := by
  have hlines := size_lineReader_le false (decode (feeds.take n).flatten).text
  have htext := size_decode_le (feeds.take n).flatten
  have hlength : (feeds.take n).flatten.length ≤ feeds.flatten.length := by
    conv_rhs => rw [← List.take_append_drop n feeds, List.flatten_append, List.length_append]
    exact Nat.le_add_right _ _
  rw [lineReader_eq] at hlines
  exact ((size_unended_le _).trans (hlines.trans htext)).trans (Nat.mul_le_mul_left 3 hlength)

theorem small_of_length (h : 3 * feeds.flatten.length ≤ maxPendingFrameBytes) : Small feeds :=
  fun n => (size_unended_take feeds n).trans h

/-- A stream cut within a line end and within a character. -/
def cutStream : List (List UInt8) :=
  [Percent.utf8 "data: \r".toList, [10, 0xC3], [0xA9, 10], Percent.utf8 "\ndata: b".toList]

theorem frames_of_stream_cut : Small cutStream ∧
    ∃ s batches, SseFrameStream.new.run cutStream = .ok (s, batches) ∧
      batches.flatMap (·.frames) = framesOf cutStream.flatten ∧
      (∀ batch ∈ batches, batch.loss.frameTooLarge = false) ∧
      batches.any (·.loss.invalidUtf8) = (decode cutStream.flatten).invalid ∧
      s.buf = unended cutStream.flatten ∧ s.partialTail = (decode cutStream.flatten).held ∧
      s.partialTail.length ≤ 3 := by
  have hsmall : Small cutStream := small_of_length (by decide)
  exact ⟨hsmall, frames_of_stream cutStream hsmall⟩

theorem findBlank_of_notMem (h : '\n' ∉ text) : findBlank text = none := by
  induction text with
  | nil => rfl
  | cons c text ih =>
    have hc : c ≠ '\n' := fun hc => h (hc ▸ List.mem_cons_self)
    rw [findBlank, if_neg fun hboth => hc hboth.1, ih fun hmem => h (List.mem_cons_of_mem c hmem)]
    rfl

theorem separated_line (hreturn : '\r' ∉ text) (hfeed : '\n' ∉ text) :
    Separated [Percent.utf8 text] := by
  intro step hstep _ hpieces
  obtain rfl := List.mem_singleton.mp hstep
  have htext : Pending.start.text (Percent.utf8 text) = text := by
    change (lineReader.read false (decode (Percent.utf8 text)).text).1 = _
    rw [Utf8.decode_utf8, SseFrameStream.lineReader_plain hreturn]
  rw [Pending.pieces_eq, htext, cut_of_no_blank (findBlank_of_notMem hfeed)] at hpieces
  exact absurd rfl hpieces

/-- A line that is too large. -/
@[irreducible] def largeText : List Char := List.replicate (maxPendingFrameBytes + 1) 'a'

theorem notMem_largeText {c : Char} (h : c ≠ 'a') : c ∉ largeText := by
  unfold largeText
  exact fun hmem => h (List.eq_of_mem_replicate hmem)

end Sse
