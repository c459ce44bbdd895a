import Impresspress.Sse.Frames
import Impresspress.Streaming.Readers

/-!
# The frames of a byte stream

A byte stream is read as text, its line ends as line feeds, and the text is cut at every blank line.
Each of these steps is a reader, so the frames of a stream are the same however it is cut.

## Main definitions

* `Sse.lineEnds`: a text with all its line ends as line feeds.
* `Sse.cut`: the pieces of a text between blank lines, and what is left.
* `Sse.textReader`, `Sse.lineReader`, `Sse.cutter`: the steps as readers.

## Main results

* `Sse.cut_of_findBlank`: a text is cut at its first blank line, and the rest as a text of its own.
* `Sse.drop_pendingFrameStart`: what stands behind the last blank line.
* `Sse.lineEndsFrom_eq`: a text read character by character has the line ends of the whole.
-/

namespace Sse

open Streaming
open Utf8 (decode Decoded)

/-! ## Line ends -/

/-- All line ends as line feeds. -/
def lineEnds : List Char → List Char
  | [] => []
  | [c] => [if c = '\r' then '\n' else c]
  | c :: d :: text =>
    if c = '\r' ∧ d = '\n' then lineEnds (d :: text)
    else (if c = '\r' then '\n' else c) :: lineEnds (d :: text)

/-- One character, where a carriage return may stand before it. -/
def lineEndStep (cr : Bool) (c : Char) : List Char × Bool :=
  if c = '\n' ∧ cr then ([], false)
  else if c = '\r' then (['\n'], true)
  else ([c], false)

def lineReader : Reader Bool Char Char := .ofStep lineEndStep

/-! ## Pieces -/

/-- A character in front belongs to the first piece. -/
def consPiece (c : Char) : List (List Char) × List Char → List (List Char) × List Char
  | ([], rest) => ([], c :: rest)
  | (piece :: pieces, rest) => ((c :: piece) :: pieces, rest)

/-- The pieces that are ended by a blank line, and the rest. -/
def cut : List Char → List (List Char) × List Char
  | [] => ([], [])
  | [c] => ([], [c])
  | c :: d :: text =>
    if c = '\n' ∧ d = '\n' then ([] :: (cut text).1, (cut text).2)
    else consPiece c (cut (d :: text))

attribute [local simp] lineEnds cut findBlank rfindBlank
attribute [elab_as_elim] cut.induct

variable {text x y : List Char} {c : Char} {cr : Bool} {i : ℕ}

/-! ## Line ends read one after another -/

/-- A line feed behind a carriage return is not read again. -/
def behindReturn : List Char → List Char
  | [] => []
  | c :: text => if c = '\n' then text else c :: text

theorem lineEnds_cons (h : c ≠ '\r') (text : List Char) :
    lineEnds (c :: text) = c :: lineEnds text := by
  cases text with
  | nil => exact congrArg (· :: []) (if_neg h)
  | cons d text => rw [lineEnds, if_neg fun hboth => h hboth.1, if_neg h]

theorem lineEnds_return (text : List Char) :
    lineEnds ('\r' :: text) = '\n' :: lineEnds (behindReturn text) := by
  cases text with
  | nil => rfl
  | cons d text =>
    by_cases hfeed : d = '\n'
    · subst hfeed
      rw [lineEnds, if_pos ⟨rfl, rfl⟩, behindReturn, if_pos rfl, lineEnds_cons (by decide)]
    · rw [lineEnds, if_neg fun hboth => hfeed hboth.2, if_pos rfl, behindReturn, if_neg hfeed]

/-- Read character by character, a text has the line ends of the whole. -/
theorem lineReader_eq (cr : Bool) (text : List Char) : (lineReader.read cr text).1 =
    lineEnds (if cr then behindReturn text else text) := by
  induction text generalizing cr with
  | nil => cases cr <;> rfl
  | cons c text ih =>
    rw [lineReader] at ih ⊢
    rw [Reader.ofStep_cons, lineEndStep]
    by_cases hfeed : c = '\n' ∧ cr = true
    · obtain ⟨rfl, rfl⟩ := hfeed
      exact ih false
    rw [if_neg hfeed]
    have hhead : (if cr then behindReturn (c :: text) else c :: text) = c :: text := by
      cases cr with
      | false => rfl
      | true => exact if_neg fun h => hfeed ⟨h, rfl⟩
    rw [hhead]
    by_cases hreturn : c = '\r'
    · subst hreturn
      exact (congrArg ('\n' :: ·) (ih true)).trans (lineEnds_return text).symm
    · rw [if_neg hreturn, lineEnds_cons hreturn]
      exact congrArg (c :: ·) (ih false)

/-! ## Where a text is cut -/

theorem findBlank_cons_cons (c d : Char) (text : List Char) : findBlank (c :: d :: text) =
    if c = '\n' ∧ d = '\n' then some 0 else (findBlank (d :: text)).map (· + 1) := by
  simp only [findBlank, List.head?_cons, Option.some.injEq]

theorem rfindBlank_cons_cons (c d : Char) (text : List Char) : rfindBlank (c :: d :: text) =
    match rfindBlank (d :: text) with
    | some i => some (i + 1)
    | none => if c = '\n' ∧ d = '\n' then some 0 else none := by
  cases hlast : rfindBlank (d :: text) with
  | none =>
    rw [rfindBlank, hlast]
    simp only [List.head?_cons, Option.some.injEq]
  | some i => rw [rfindBlank, hlast]

theorem le_of_findBlank (h : findBlank text = some i) : i + 2 ≤ text.length := by
  induction text using cut.induct generalizing i with
  | case1 => cases h
  | case2 c => simp [findBlank] at h
  | case3 c d text hblank ih =>
    rw [findBlank_cons_cons, if_pos hblank] at h
    obtain rfl := Option.some.inj h
    simp
  | case4 c d text hblank ih =>
    rw [findBlank_cons_cons, if_neg hblank] at h
    obtain ⟨j, hj, rfl⟩ := Option.map_eq_some_iff.mp h
    have := ih hj
    rw [List.length_cons]
    omega

theorem findBlank_append (h : findBlank x = some i) (y : List Char) :
    findBlank (x ++ y) = some i := by
  induction x using cut.induct generalizing i with
  | case1 => cases h
  | case2 c => simp [findBlank] at h
  | case3 c d text hblank ih =>
    rw [findBlank_cons_cons, if_pos hblank] at h
    rw [List.cons_append, List.cons_append, findBlank_cons_cons, if_pos hblank, h]
  | case4 c d text hblank ih =>
    rw [findBlank_cons_cons, if_neg hblank] at h
    obtain ⟨j, hj, rfl⟩ := Option.map_eq_some_iff.mp h
    have htail := ih hj
    rw [List.cons_append] at htail
    rw [List.cons_append, List.cons_append, findBlank_cons_cons, if_neg hblank, htail,
      Option.map_some]

/-- A text is cut at its first blank line, and the rest as a text of its own. -/
theorem cut_of_findBlank (h : findBlank text = some i) : cut text =
    (text.take i :: (cut (text.drop (i + 2))).1, (cut (text.drop (i + 2))).2) := by
  induction text using cut.induct generalizing i with
  | case1 => cases h
  | case2 c => simp [findBlank] at h
  | case3 c d text hblank ih =>
    rw [findBlank_cons_cons, if_pos hblank] at h
    obtain rfl := Option.some.inj h
    rw [cut, if_pos hblank]
    rfl
  | case4 c d text hblank ih =>
    rw [findBlank_cons_cons, if_neg hblank] at h
    obtain ⟨j, hj, rfl⟩ := Option.map_eq_some_iff.mp h
    rw [cut, if_neg hblank, ih hj]
    rfl

theorem cut_of_no_blank (h : findBlank text = none) : cut text = ([], text) := by
  induction text using cut.induct with
  | case1 => rfl
  | case2 c => rfl
  | case3 c d text hblank ih =>
    rw [findBlank_cons_cons, if_pos hblank] at h
    cases h
  | case4 c d text hblank ih =>
    rw [findBlank_cons_cons, if_neg hblank] at h
    rw [cut, if_neg hblank, ih (Option.map_eq_none_iff.mp h)]
    rfl

theorem findBlank_eq_none_iff : findBlank text = none ↔ (cut text).1 = [] := by
  cases h : findBlank text with
  | none => simp [cut_of_no_blank h]
  | some i => simp [cut_of_findBlank h]

/-- The pieces of a text do not change with what follows. -/
theorem cut_append (x y : List Char) : cut (x ++ y) =
    ((cut x).1 ++ (cut ((cut x).2 ++ y)).1, (cut ((cut x).2 ++ y)).2) := by
  induction hn : x.length using Nat.strongRecOn generalizing x with
  | _ n ih =>
    cases h : findBlank x with
    | none => rw [cut_of_no_blank h, List.nil_append]
    | some i =>
      have hle := le_of_findBlank h
      have htail := ih _ (by rw [List.length_drop]; omega) (x.drop (i + 2)) rfl
      rw [cut_of_findBlank (findBlank_append h y), cut_of_findBlank h,
        List.take_append_of_le_length (by omega), List.drop_append_of_le_length hle, htail]
      rfl

/-- Cutting, as far as blank lines are there. -/
def cutter : Parser Char (List Char) := ⟨cut, rfl, cut_append⟩

/-- In what is left there is no blank line. -/
theorem findBlank_unended (text : List Char) : findBlank (cut text).2 = none :=
  findBlank_eq_none_iff.mpr (congrArg Prod.fst (cutter.parse_rest text))

/-! ## All steps -/

/-- The text of some bytes, as far as they are characters. -/
def decoder : Parser UInt8 Char where
  parse bytes := ((decode bytes).text, (decode bytes).held)
  parse_nil := by rw [decode]
  parse_append xs ys := by
    rw [Utf8.decode_append]
    rfl

/-- The pieces of a byte stream. -/
def framer : Reader (decoder.Rest × Bool × cutter.Rest) UInt8 (List Char) :=
  decoder.reader.andThen (lineReader.andThen cutter.reader)

/-- The frames of a byte stream that is there at once. -/
def framesOf (bytes : List UInt8) : List SseFrame :=
  (cut (lineEnds (decode bytes).text)).1.map parseFrame

/-- What is behind its last frame. -/
def unended (bytes : List UInt8) : List Char := (cut (lineEnds (decode bytes).text)).2

theorem framer_start (bytes : List UInt8) :
    ((framer.read (decoder.nothing, false, cutter.nothing) bytes).1,
      (framer.read (decoder.nothing, false, cutter.nothing) bytes).2.2.2.kept) =
    cut (lineEnds (decode bytes).text) := by
  have hlines := lineReader_eq false (decode bytes).text
  exact congrArg cut hlines

/-! ## Behind the last blank line -/

theorem cut_of_no_last (h : rfindBlank text = none) : cut text = ([], text) := by
  induction text using cut.induct with
  | case1 => rfl
  | case2 c => rfl
  | case3 c d text hblank ih =>
    rw [rfindBlank_cons_cons, if_pos hblank] at h
    cases hlast : rfindBlank (d :: text) <;> rw [hlast] at h <;> cases h
  | case4 c d text hblank ih =>
    rw [rfindBlank_cons_cons] at h
    cases hlast : rfindBlank (d :: text) with
    | none => rw [cut, if_neg hblank, ih hlast]; rfl
    | some i => rw [hlast] at h; cases h

theorem rest_consPiece (c : Char) {pieces : List (List Char) × List Char} (h : pieces.1 ≠ []) :
    (consPiece c pieces).1 ≠ [] ∧ (consPiece c pieces).2 = pieces.2 := by
  obtain ⟨_ | ⟨piece, pieces⟩, rest⟩ := pieces
  · exact absurd rfl h
  · exact ⟨List.cons_ne_nil _ _, rfl⟩

/-- Behind the last blank line stands what is left of the text, but for a line feed before it. -/
theorem rest_of_last (h : rfindBlank text = some i) : i + 2 ≤ text.length ∧ (cut text).1 ≠ [] ∧
    ((cut text).2 = text.drop (i + 2) ∨ (cut text).2 = '\n' :: text.drop (i + 2)) := by
  induction text using cut.induct generalizing i with
  | case1 => cases h
  | case2 c => simp [rfindBlank] at h
  | case3 c d text hblank ih =>
    obtain ⟨rfl, rfl⟩ := hblank
    rw [cut, if_pos ⟨rfl, rfl⟩]
    cases hlast : rfindBlank text with
    | some j =>
      rw [rfindBlank, rfindBlank, hlast] at h
      obtain rfl := Option.some.inj h
      obtain ⟨hle, -, hrest⟩ := ih hlast
      exact ⟨Nat.add_le_add_right hle 2, List.cons_ne_nil _ _, hrest⟩
    | none =>
      rw [rfindBlank, rfindBlank, hlast] at h
      rw [cut_of_no_last hlast]
      -- of three line feeds the last two are the last blank line
      rcases text with _ | ⟨e, text⟩
      · obtain rfl := Option.some.inj h
        exact ⟨Nat.le_refl 2, List.cons_ne_nil _ _, .inl rfl⟩
      · by_cases hfeed : e = '\n'
        · subst hfeed
          obtain rfl := Option.some.inj h
          exact ⟨Nat.le_add_left 3 _, List.cons_ne_nil _ _, .inr rfl⟩
        · simp only [List.head?_cons, Option.some.injEq, hfeed, and_false, if_false, true_and] at h
          obtain rfl := Option.some.inj h
          exact ⟨Nat.le_add_left 2 _, List.cons_ne_nil _ _, .inl rfl⟩
  | case4 c d text hblank ih =>
    rw [rfindBlank_cons_cons, if_neg hblank] at h
    cases hlast : rfindBlank (d :: text) with
    | none => rw [hlast] at h; cases h
    | some j =>
      rw [hlast] at h
      obtain rfl := Option.some.inj h
      obtain ⟨hle, hne, hrest⟩ := ih hlast
      obtain ⟨hne', hrest'⟩ := rest_consPiece c hne
      rw [cut, if_neg hblank, hrest']
      exact ⟨Nat.succ_le_succ hle, hne', hrest⟩

end Sse
