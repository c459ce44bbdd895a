import Impresspress.Ranked.Cut
import Mathlib.Data.List.AList
import Mathlib.Data.Prod.Lex
import Mathlib.Data.String.Basic
import Mathlib.Order.BooleanAlgebra.Basic

/-!
# The in-memory rate limiter

Fixed windows: a bucket counts the calls of one key since its window began, those that were refused
included. The map holds so many buckets at most; a new key makes room by dropping the expired
buckets and, where this frees nothing, the cheapest of the others. Times are nanoseconds of the
monotonic clock, counts are of 32 bits.

## Main definitions

* `RateLimits.evictForNewKey`, `RateLimits.check`: making room for a key, and charging it.

## Main results

* `RateLimits.lookup_check`, `RateLimits.lookup_check_ne`: the buckets after a call.
* `RateLimits.size_check_le`: the map stays within its capacity.
-/

namespace RateLimits

/-- Most requests within a window. -/
structure RateLimit where
  maxRequests : ℕ
  window : ℕ
  deriving DecidableEq, Repr

structure RateBucket where
  count : ℕ
  windowStart : ℕ
  /-- The limit under which the bucket was charged last. -/
  limit : RateLimit
  deriving DecidableEq, Repr

def RateBucket.expired (b : RateBucket) (now : ℕ) : Bool := b.limit.window < now - b.windowStart

def RateBucket.throttled (b : RateBucket) : Bool := b.limit.maxRequests ≤ b.count

abbrev Buckets : Type := AList fun _ : String => RateBucket

namespace Buckets

def size (m : Buckets) : ℕ := m.keys.length

def retain (keep : RateBucket → Bool) (m : Buckets) : Buckets :=
  ⟨m.entries.filter fun e => keep e.2, m.nodupKeys.sublist List.filter_sublist⟩

end Buckets

/-- A bucket as it is ranked: throttled, count, start of its window, key. -/
abbrev Victim : Type := Bool ×ₗ ℕ ×ₗ ℕ ×ₗ String

def victim (key : String) (b : RateBucket) : Victim :=
  toLex (b.throttled, toLex (b.count, toLex (b.windowStart, key)))

def Victim.throttled (v : Victim) : Bool := (ofLex v).1

def Victim.key (v : Victim) : String := (ofLex (ofLex (ofLex v).2).2).2

/-- The buckets, cheapest first. -/
def victims (m : Buckets) : List Victim :=
  (m.entries.map fun e => victim e.1 e.2).insertionSort (· ≤ ·)

def evictForNewKey (buckets : Buckets) (capacity now : ℕ) : Buckets :=
  let live := buckets.retain fun b => !b.expired now
  if live.size < capacity then live
  else
    let target := capacity - capacity / 10
    let excess := live.size + 1 - target
    ((victims live).take excess).foldl (fun m v => m.erase v.key) live

/-- The map with room for the key. -/
def roomFor (buckets : Buckets) (capacity now : ℕ) (key : String) : Buckets :=
  if buckets.lookup key = none ∧ capacity ≤ buckets.size then evictForNewKey buckets capacity now
  else buckets

/-- The bucket of a call before it is charged. -/
def RateBucket.renew (b : RateBucket) (now : ℕ) (limit : RateLimit) : RateBucket :=
  let b := { b with limit }
  if b.expired now then { b with count := 0, windowStart := now } else b

def RateBucket.charge (b : RateBucket) : RateBucket := { b with count := (b.count + 1) % 2 ^ 32 }

/-- What is left of the budget, or the seconds after which to try again. -/
def answer (b : RateBucket) (now : ℕ) (limit : RateLimit) : Except ℕ ℕ :=
  if limit.maxRequests < b.count then
    .error (max ((limit.window - (now - b.windowStart)) / 10 ^ 9) 1)
  else .ok (limit.maxRequests - b.count)

def check (capacity : ℕ) (buckets : Buckets) (now : ℕ) (key : String) (limit : RateLimit) :
    Except ℕ ℕ × Buckets :=
  let buckets := roomFor buckets capacity now key
  let bucket := ((buckets.lookup key).getD ⟨0, now, limit⟩).renew now limit |>.charge
  (answer bucket now limit, buckets.insert key bucket)

/-! ## The map -/

variable {m : Buckets} {capacity now : ℕ} {key k : String} {b : RateBucket} {limit : RateLimit}

theorem mem_entries_iff : (⟨k, b⟩ : Sigma fun _ : String => RateBucket) ∈ m.entries ↔
    m.lookup k = some b := AList.mem_lookup_iff.symm

theorem lookup_retain {keep : RateBucket → Bool} :
    (m.retain keep).lookup k = (m.lookup k).filter keep := by
  ext b
  rw [← Option.mem_def, AList.mem_lookup_iff, Buckets.retain, List.mem_filter, mem_entries_iff]
  simp

theorem size_retain_le {keep : RateBucket → Bool} : (m.retain keep).size ≤ m.size := by
  simp only [Buckets.size, AList.keys, List.keys, List.length_map]
  exact List.length_filter_le _ _

theorem size_insert_of_lookup (hb : m.lookup key = some b) {b' : RateBucket} :
    Buckets.size (m.insert key b') = m.size := by
  have hmem : key ∈ m.keys := AList.mem_keys.mp (AList.lookup_isSome.mp (by rw [hb]; rfl))
  rw [Buckets.size, AList.keys_insert, List.length_cons, List.length_erase_of_mem hmem,
    Nat.sub_add_cancel (List.length_pos_of_mem hmem), Buckets.size]

theorem size_insert_le {b' : RateBucket} : Buckets.size (m.insert key b') ≤ m.size + 1 := by
  rw [Buckets.size, AList.keys_insert, List.length_cons]
  exact Nat.succ_le_succ (List.length_erase_le)

/-! ## Making room -/

@[simp] theorem throttled_victim : (victim k b).throttled = b.throttled := rfl

@[simp] theorem key_victim : (victim k b).key = k := rfl

theorem victims_perm : (victims m).Perm (m.entries.map fun e => victim e.1 e.2) :=
  List.perm_insertionSort _ _

theorem mem_victims {v : Victim} : v ∈ victims m ↔ ∃ k b, m.lookup k = some b ∧ v = victim k b := by
  rw [victims_perm.mem_iff, List.mem_map]
  constructor
  · rintro ⟨⟨k, b⟩, hmem, rfl⟩
    exact ⟨k, b, mem_entries_iff.mp hmem, rfl⟩
  · rintro ⟨k, b, hb, rfl⟩
    exact ⟨⟨k, b⟩, mem_entries_iff.mpr hb, rfl⟩

/-- Whoever is under its budget goes before whoever is throttled. -/
theorem not_le_of_throttled {v w : Victim} (hv : v.throttled = true) (hw : w.throttled = false) :
    ¬ v ≤ w := by
  refine not_le_of_gt (Prod.Lex.lt_iff.mpr (.inl ?_))
  rw [show (ofLex v).1 = true from hv, show (ofLex w).1 = false from hw]
  decide

theorem victims_sorted : (victims m).Pairwise (· ≤ ·) := List.pairwise_insertionSort _ _

theorem victims_keys_nodup : ((victims m).map Victim.key).Nodup := by
  rw [(victims_perm.map Victim.key).nodup_iff, List.map_map]
  exact m.keys_nodup

theorem lookup_foldl_erase {vs : List Victim} :
    (vs.foldl (fun m v => m.erase v.key) m).lookup k =
      if k ∈ vs.map Victim.key then none else m.lookup k := by
  induction vs generalizing m with
  | nil => rfl
  | cons v vs ih =>
    rw [List.foldl_cons, ih]
    simp only [List.map_cons, List.mem_cons]
    by_cases hk : k = v.key
    · rw [hk, AList.lookup_erase, ite_self, if_pos (Or.inl rfl)]
    · rw [AList.lookup_erase_ne hk]
      simp only [hk, false_or]

theorem size_foldl_erase {vs : List Victim} (hnodup : (vs.map Victim.key).Nodup)
    (hmem : ∀ v ∈ vs, v.key ∈ m) :
    Buckets.size (vs.foldl (fun m v => m.erase v.key) m) = m.size - vs.length := by
  induction vs generalizing m with
  | nil => rfl
  | cons v vs ih =>
    rw [List.map_cons, List.nodup_cons] at hnodup
    have hkeep : ∀ w ∈ vs, w.key ∈ m.erase v.key := fun w hw => AList.mem_erase.mpr
      ⟨fun heq => hnodup.1 (heq ▸ List.mem_map_of_mem hw), hmem w (List.mem_cons_of_mem v hw)⟩
    rw [List.foldl_cons, ih hnodup.2 hkeep, Buckets.size, AList.keys_erase,
      List.length_erase_of_mem (AList.mem_keys.mp (hmem v List.mem_cons_self)), List.length_cons,
      Buckets.size, Nat.sub_sub, Nat.add_comm]

/-- How many buckets are dropped for a new key. -/
def excess (live : Buckets) (capacity : ℕ) : ℕ :=
  if live.size < capacity then 0 else live.size + 1 - (capacity - capacity / 10)

/-- The buckets whose windows are still open. -/
def Buckets.live (m : Buckets) (now : ℕ) : Buckets := m.retain fun b => !b.expired now

theorem lookup_live : (m.live now).lookup k = some b ↔
    m.lookup k = some b ∧ b.expired now = false := by
  rw [Buckets.live, lookup_retain, Option.filter_eq_some_iff]
  simp

theorem evictForNewKey_eq : evictForNewKey m capacity now =
    ((victims (m.live now)).take (excess (m.live now) capacity)).foldl
      (fun m v => m.erase v.key) (m.live now) := by
  by_cases h : (m.live now).size < capacity
  · exact (if_pos h).trans (by rw [excess, if_pos h]; rfl)
  · exact (if_neg h).trans (by rw [excess, if_neg h]; rfl)

/-- A bucket is gone when it was expired, or was among the cheapest. -/
theorem lookup_evictForNewKey (hb : m.lookup k = some b) :
    (evictForNewKey m capacity now).lookup k = some b ∨
      (evictForNewKey m capacity now).lookup k = none ∧ (b.expired now = true ∨
        victim k b ∈ (victims (m.live now)).take (excess (m.live now) capacity)) := by
  rw [evictForNewKey_eq, lookup_foldl_erase]
  cases hexpired : b.expired now with
  | true =>
    have hnone : (m.live now).lookup k = none := by
      rw [Option.eq_none_iff_forall_ne_some]
      intro b' hb'
      obtain ⟨hb', hlive⟩ := lookup_live.mp hb'
      cases hb.symm.trans hb'
      exact Bool.false_ne_true (hlive.symm.trans hexpired)
    exact .inr ⟨by rw [hnone, ite_self], .inl rfl⟩
  | false =>
    have hlive := lookup_live.mpr ⟨hb, hexpired⟩
    by_cases hk : k ∈ ((victims (m.live now)).take (excess (m.live now) capacity)).map Victim.key
    · refine .inr ⟨if_pos hk, .inr ?_⟩
      obtain ⟨v, hv, rfl⟩ := List.mem_map.mp hk
      obtain ⟨k, b', hb', rfl⟩ := mem_victims.mp (List.mem_of_mem_take hv)
      cases hlive.symm.trans hb'
      exact hv
    · exact .inl ((if_neg hk).trans hlive)

theorem lookup_evictForNewKey_of_victim
    (hv : victim k b ∈ (victims (m.live now)).take (excess (m.live now) capacity)) :
    (evictForNewKey m capacity now).lookup k = none := by
  rw [evictForNewKey_eq, lookup_foldl_erase]
  exact if_pos (List.mem_map_of_mem hv)

theorem lookup_of_lookup_evictForNewKey (hb : (evictForNewKey m capacity now).lookup k = some b) :
    m.lookup k = some b := by
  rw [evictForNewKey_eq, lookup_foldl_erase] at hb
  split_ifs at hb
  exact (lookup_live.mp hb).1

/-- There is room for one more. -/
theorem size_evictForNewKey_lt (hcapacity : 1 ≤ capacity) :
    Buckets.size (evictForNewKey m capacity now) < capacity := by
  have hlength : (victims (m.live now)).length = (m.live now).size := by
    rw [victims_perm.length_eq, List.length_map, Buckets.size, AList.keys, List.keys,
      List.length_map]
  rw [evictForNewKey_eq, size_foldl_erase ?_ ?_, List.length_take, hlength, excess]
  · split_ifs with h <;> omega
  · exact victims_keys_nodup.sublist ((List.take_sublist _ _).map _)
  · intro v hv
    obtain ⟨k, b, hb, rfl⟩ := mem_victims.mp (List.mem_of_mem_take hv)
    exact AList.lookup_isSome.mp (by rw [key_victim, hb]; rfl)

/-- A throttled bucket is among the cheapest only when all those under their budgets are, -/
theorem mem_take_of_throttled {n : ℕ} {b' : RateBucket} {k' : String}
    (hv : victim k b ∈ (victims m).take n) (hb : b.throttled = true)
    (hb' : m.lookup k' = some b') (hunder : b'.throttled = false) :
    victim k' b' ∈ (victims m).take n :=
  Ranked.mem_take_of_not_rel victims_sorted hv (mem_victims.mpr ⟨k', b', hb', rfl⟩)
    (not_le_of_throttled hb hunder)

/-- The throttled buckets whose windows are still open. -/
def throttledLive (m : Buckets) (now : ℕ) : ℕ :=
  m.entries.countP fun e => e.2.throttled && !e.2.expired now

/-- and then those that are throttled are nine tenths of the capacity. -/
theorem le_throttledLive_of_mem_take (hb : b.throttled = true)
    (hv : victim k b ∈ (victims (m.live now)).take (excess (m.live now) capacity)) :
    9 * capacity ≤ 10 * throttledLive m now := by
  have hunder := Ranked.countP_lt_of_mem_take (p := fun v => !v.throttled) victims_sorted hv
    (by simpa using hb) fun w _ hw => not_le_of_throttled hb (by simpa using hw)
  have hlength : (m.live now).entries.length = (m.live now).size := by
    rw [Buckets.size, AList.keys, List.keys, List.length_map]
  have hcount : (victims (m.live now)).countP (fun v => !v.throttled) +
      throttledLive m now = (m.live now).size := by
    rw [victims_perm.countP_eq, List.countP_map, throttledLive, ← hlength,
      List.length_eq_countP_add_countP fun e => !e.2.throttled]
    congr 1
    rw [Buckets.live, Buckets.retain, List.countP_filter]
    simp
  unfold excess at hunder
  split_ifs at hunder <;> omega

/-! ## One call -/

theorem roomFor_of_lookup (hb : m.lookup key = some b) : roomFor m capacity now key = m :=
  if_neg fun h => by rw [hb] at h; exact Option.some_ne_none _ h.1

theorem lookup_of_lookup_roomFor (hb : (roomFor m capacity now key).lookup k = some b) :
    m.lookup k = some b := by
  unfold roomFor at hb
  split_ifs at hb
  · exact lookup_of_lookup_evictForNewKey hb
  · exact hb

theorem size_roomFor_lt (hcapacity : 1 ≤ capacity) (hkey : m.lookup key = none) :
    Buckets.size (roomFor m capacity now key) < capacity := by
  unfold roomFor
  split_ifs with h
  · exact size_evictForNewKey_lt hcapacity
  · exact not_le.mp fun hsize => h ⟨hkey, hsize⟩

/-- The bucket that a call leaves. -/
def charged (m : Buckets) (now : ℕ) (key : String) (limit : RateLimit) : RateBucket :=
  (((m.lookup key).getD ⟨0, now, limit⟩).renew now limit).charge

theorem lookup_roomFor_self : (roomFor m capacity now key).lookup key = m.lookup key := by
  cases hb : m.lookup key with
  | some b => rw [roomFor_of_lookup hb, hb]
  | none =>
    rw [Option.eq_none_iff_forall_ne_some]
    intro b hb'
    exact Option.some_ne_none b ((lookup_of_lookup_roomFor hb').symm.trans hb)

theorem check_eq : check capacity m now key limit =
    (answer (charged m now key limit) now limit,
      (roomFor m capacity now key).insert key (charged m now key limit)) := by
  rw [check, lookup_roomFor_self]
  rfl

theorem lookup_check :
    (check capacity m now key limit).2.lookup key = some (charged m now key limit) := by
  rw [check_eq, AList.lookup_insert]

theorem lookup_check_ne (hk : k ≠ key) : (check capacity m now key limit).2.lookup k =
    (roomFor m capacity now key).lookup k := by
  rw [check_eq, AList.lookup_insert_ne hk]

theorem size_check_le (hcapacity : 1 ≤ capacity) (hm : m.size ≤ capacity) :
    Buckets.size (check capacity m now key limit).2 ≤ capacity := by
  rw [check_eq]
  cases hb : m.lookup key with
  | some b => rw [roomFor_of_lookup hb, size_insert_of_lookup hb]; exact hm
  | none => exact size_insert_le.trans (size_roomFor_lt hcapacity hb)

end RateLimits
