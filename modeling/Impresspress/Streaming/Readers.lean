import Mathlib.Data.List.Basic

/-!
# Reading in pieces

A reader takes a sequence in pieces, keeps a state between them and writes as it reads. What it
writes for two pieces is what it writes for both put together, so it does not matter how a sequence
is cut.

## Main definitions

* `Streaming.Reader`: a reader, by what it writes for a piece and the state it is left in.
* `Streaming.Reader.ofStep`: one element after another.
* `Streaming.Parser.reader`: what cannot be read yet is held back.
* `Streaming.Reader.andThen`: one reader behind another.
* `Streaming.Reader.pieces`: all pieces of a sequence.
* `Streaming.keyed`: a reader for each key.

## Main results

* `Streaming.Reader.flatten_pieces`: it does not matter how the sequence is cut.
* `Streaming.keyed_ofKey`: what is read for one key does not depend on the others.
-/

namespace Streaming

universe u

structure Reader (σ α β : Type u) where
  read : σ → List α → List β × σ
  read_nil (s : σ) : read s [] = ([], s)
  read_append (s : σ) (xs ys : List α) : read s (xs ++ ys) =
    ((read s xs).1 ++ (read (read s xs).2 ys).1, (read (read s xs).2 ys).2)

variable {σ τ α β γ : Type u}

namespace Reader

/-! ## All pieces -/

/-- What is written for each piece, and the last state. -/
def pieces (f : Reader σ α β) : σ → List (List α) → List (List β) × σ
  | s, [] => ([], s)
  | s, xs :: rest =>
    let (out, s) := f.read s xs
    let (outs, s) := f.pieces s rest
    (out :: outs, s)

/-- It does not matter how a sequence is cut. -/
theorem flatten_pieces (f : Reader σ α β) (s : σ) (xss : List (List α)) :
    ((f.pieces s xss).1.flatten, (f.pieces s xss).2) = f.read s xss.flatten := by
  induction xss generalizing s with
  | nil => exact (f.read_nil s).symm
  | cons xs xss ih =>
    have htail := ih (f.read s xs).2
    rw [List.flatten_cons, f.read_append, ← htail]
    rfl

theorem length_pieces (f : Reader σ α β) (s : σ) (xss : List (List α)) :
    (f.pieces s xss).1.length = xss.length := by
  induction xss generalizing s with
  | nil => rfl
  | cons xs xss ih => exact congrArg (· + 1) (ih _)

/-! ## One element after another -/

def readSteps (step : σ → α → List β × σ) : σ → List α → List β × σ
  | s, [] => ([], s)
  | s, x :: xs =>
    let (out, s) := step s x
    let (outs, s) := readSteps step s xs
    (out ++ outs, s)

theorem readSteps_append (step : σ → α → List β × σ) (s : σ) (xs ys : List α) :
    readSteps step s (xs ++ ys) = ((readSteps step s xs).1 ++
      (readSteps step (readSteps step s xs).2 ys).1,
        (readSteps step (readSteps step s xs).2 ys).2) := by
  induction xs generalizing s with
  | nil => rfl
  | cons x xs ih => simp only [List.cons_append, readSteps, ih, List.append_assoc]

def ofStep (step : σ → α → List β × σ) : Reader σ α β where
  read := readSteps step
  read_nil _ := rfl
  read_append := readSteps_append step

@[simp] theorem ofStep_nil (step : σ → α → List β × σ) (s : σ) :
    (ofStep step).read s [] = ([], s) := rfl

@[simp] theorem ofStep_cons (step : σ → α → List β × σ) (s : σ) (x : α) (xs : List α) :
    (ofStep step).read s (x :: xs) = ((step s x).1 ++ ((ofStep step).read (step s x).2 xs).1,
      ((ofStep step).read (step s x).2 xs).2) := rfl

theorem ofStep_append (step : σ → α → List β × σ) (s : σ) (xs ys : List α) :
    ((ofStep step).read s (xs ++ ys)) = (((ofStep step).read s xs).1 ++
      ((ofStep step).read ((ofStep step).read s xs).2 ys).1,
        ((ofStep step).read ((ofStep step).read s xs).2 ys).2) :=
  (ofStep step).read_append s xs ys

theorem ofStep_map (step : σ → β → List γ × σ) (f : α → β) (s : σ) (xs : List α) :
    (ofStep step).read s (xs.map f) = (ofStep fun s x => step s (f x)).read s xs := by
  induction xs generalizing s with
  | nil => rfl
  | cons x xs ih => rw [List.map_cons, ofStep_cons, ofStep_cons, ih]

/-- What every step keeps is kept. -/
theorem ofStep_induction {step : σ → α → List β × σ} {P : σ → Prop}
    (hstep : ∀ s x, P s → P (step s x).2) {s : σ} (hs : P s) (xs : List α) :
    P ((ofStep step).read s xs).2 := by
  induction xs generalizing s with
  | nil => exact hs
  | cons x xs ih => exact ih (hstep s x hs)

/-! ## Readers put together -/

/-- One reader reads what another writes. -/
def andThen (f : Reader σ α β) (g : Reader τ β γ) : Reader (σ × τ) α γ where
  read s xs :=
    let (out, s₁) := f.read s.1 xs
    let (out, s₂) := g.read s.2 out
    (out, s₁, s₂)
  read_nil s := by simp only [f.read_nil, g.read_nil]
  read_append s xs ys := by simp only [f.read_append, g.read_append]

/-- A reader without a state. -/
def map (f : α → β) : Reader PUnit α β := ofStep fun s x => ([f x], s)

theorem map_read (f : α → β) (s : PUnit) (xs : List α) : (map f).read s xs = (xs.map f, s) := by
  induction xs with
  | nil => rfl
  | cons x xs ih =>
    rw [map, ofStep_cons]
    rw [map] at ih
    rw [ih]
    rfl

end Reader

/-! ## Many readers at once -/

section Keyed

variable {κ : Type u} [DecidableEq κ]

/-- The elements of one key. -/
def ofKey (k : κ) (xs : List (κ × α)) : List α :=
  xs.filterMap fun x => if x.1 = k then some x.2 else none

theorem ofKey_cons (k : κ) (x : κ × α) (xs : List (κ × α)) :
    ofKey k (x :: xs) = (if x.1 = k then [x.2] else []) ++ ofKey k xs := by
  rw [ofKey, List.filterMap_cons]
  split_ifs <;> rfl

theorem ofKey_append (k : κ) (xs ys : List (κ × α)) :
    ofKey k (xs ++ ys) = ofKey k xs ++ ofKey k ys :=
  List.filterMap_append

theorem ofKey_map (k l : κ) (xs : List α) :
    ofKey k (xs.map (l, ·)) = if l = k then xs else [] := by
  induction xs with
  | nil => split_ifs <;> rfl
  | cons x xs ih =>
    rw [List.map_cons, ofKey_cons, ih]
    split_ifs <;> rfl

theorem mem_ofKey {k : κ} {x : α} {xs : List (κ × α)} : x ∈ ofKey k xs ↔ (k, x) ∈ xs := by
  rw [ofKey, List.mem_filterMap]
  constructor
  · rintro ⟨⟨l, y⟩, hmem, hy⟩
    split_ifs at hy with hkey
    rw [← hkey, ← Option.some.inj hy]
    exact hmem
  · exact fun hmem => ⟨(k, x), hmem, if_pos rfl⟩

/-- What belongs to a key is found by what tells it apart. -/
theorem filter_map_snd {p : α → Bool} {k : κ} {xs : List (κ × α)}
    (h : ∀ x ∈ xs, p x.2 = true ↔ x.1 = k) : (xs.map (·.2)).filter p = ofKey k xs := by
  induction xs with
  | nil => rfl
  | cons x xs ih =>
    have hx := h x List.mem_cons_self
    rw [List.map_cons, List.filter_cons, ih fun y hy => h y (List.mem_cons_of_mem _ hy),
      ofKey_cons]
    by_cases hkey : x.1 = k
    · rw [if_pos hkey, if_pos (hx.mpr hkey)]
      rfl
    · rw [if_neg hkey, if_neg (hkey ∘ hx.mp)]
      rfl

/-- For each key a reader of its own. -/
def keyed (step : κ → σ → α → List β × σ) : Reader (κ → σ) (κ × α) (κ × β) :=
  .ofStep fun s x =>
    let (out, s') := step x.1 (s x.1) x.2
    (out.map (x.1, ·), Function.update s x.1 s')

theorem keyed_cons (step : κ → σ → α → List β × σ) (s : κ → σ) (k : κ) (a : α)
    (xs : List (κ × α)) : (keyed step).read s ((k, a) :: xs) =
      ((step k (s k) a).1.map (k, ·) ++
          ((keyed step).read (Function.update s k (step k (s k) a).2) xs).1,
        ((keyed step).read (Function.update s k (step k (s k) a).2) xs).2) := rfl

/-- However the elements of other keys stand between them, those of one key are read alone. -/
theorem keyed_ofKey (step : κ → σ → α → List β × σ) (k : κ) (s : κ → σ) (xs : List (κ × α)) :
    ofKey k ((keyed step).read s xs).1 = ((Reader.ofStep (step k)).read (s k) (ofKey k xs)).1 ∧
      ((keyed step).read s xs).2 k = ((Reader.ofStep (step k)).read (s k) (ofKey k xs)).2 := by
  induction xs generalizing s with
  | nil => exact ⟨rfl, rfl⟩
  | cons x xs ih =>
    obtain ⟨hout, hstate⟩ := ih (Function.update s x.1 (step x.1 (s x.1) x.2).2)
    rw [keyed] at hout hstate ⊢
    rw [Reader.ofStep_cons, ofKey_append, ofKey_map, hout, hstate, ofKey_cons]
    by_cases hkey : x.1 = k
    · subst hkey
      rw [if_pos rfl, if_pos rfl, Function.update_self]
      exact ⟨rfl, rfl⟩
    · rw [if_neg hkey, if_neg hkey, Function.update_of_ne (Ne.symm hkey)]
      exact ⟨rfl, rfl⟩

end Keyed

/-! ## What cannot be read yet -/

/-- Reading the beginning of a sequence and leaving the rest. What has been read does not change
with what follows. -/
structure Parser (α β : Type u) where
  parse : List α → List β × List α
  parse_nil : parse [] = ([], [])
  parse_append (xs ys : List α) : parse (xs ++ ys) =
    ((parse xs).1 ++ (parse ((parse xs).2 ++ ys)).1, (parse ((parse xs).2 ++ ys)).2)

namespace Parser

/-- In what is left there is nothing more to read. -/
theorem parse_rest (p : Parser α β) (xs : List α) :
    p.parse (p.parse xs).2 = ([], (p.parse xs).2) := by
  have hnil := p.parse_append xs []
  rw [List.append_nil, List.append_nil] at hnil
  have hfst := congrArg Prod.fst hnil
  have hsnd := congrArg Prod.snd hnil
  exact Prod.ext (List.self_eq_append_right.mp hfst) hsnd.symm

/-- What is left by the parser. -/
@[ext]
structure Rest (p : Parser α β) where
  kept : List α
  unread : p.parse kept = ([], kept)

def nothing (p : Parser α β) : p.Rest := ⟨[], p.parse_nil⟩

def reader (p : Parser α β) : Reader p.Rest α β where
  read s xs := ((p.parse (s.kept ++ xs)).1, ⟨_, p.parse_rest (s.kept ++ xs)⟩)
  read_nil s := by
    have hrest : p.parse (s.kept ++ []) = ([], s.kept) := by rw [List.append_nil, s.unread]
    obtain ⟨hread, hleft⟩ := Prod.ext_iff.mp hrest
    exact Prod.ext hread (Rest.ext hleft)
  read_append s xs ys := by
    have happend := p.parse_append (s.kept ++ xs) ys
    rw [List.append_assoc] at happend
    obtain ⟨hread, hleft⟩ := Prod.ext_iff.mp happend
    exact Prod.ext hread (Rest.ext hleft)

end Parser

end Streaming
