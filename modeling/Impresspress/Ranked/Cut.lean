import Mathlib.Data.List.Sort

/-!
# The first of a sorted list

What a cut leaves of a list that stands in some order.

## Main results

* `Ranked.mem_take_of_not_rel`: whatever does not stand after one of the first is among them too.
* `Ranked.countP_lt_of_mem_take`: the first are more than those that stand before one of them.
* `Ranked.filter_take_eq_iff`: when it makes no difference whether a list is cut or filtered first.
-/

namespace Ranked

variable {α : Type*} {r : α → α → Prop} {l : List α} {n : ℕ} {v w : α}

/-- What stands behind the cut stands behind each of the first. -/
theorem rel_of_mem_drop (hl : l.Pairwise r) (hv : v ∈ l.take n) (hw : w ∈ l.drop n) : r v w := by
  rw [← List.take_append_drop n l] at hl
  exact (List.pairwise_append.mp hl).2.2 v hv w hw

theorem mem_take_of_not_rel (hl : l.Pairwise r) (hv : v ∈ l.take n) (hw : w ∈ l)
    (hrel : ¬ r v w) : w ∈ l.take n := by
  rw [← List.take_append_drop n l, List.mem_append] at hw
  exact hw.resolve_right fun hdrop => hrel (rel_of_mem_drop hl hv hdrop)

theorem countP_lt_of_mem_take {p : α → Bool} (hl : l.Pairwise r) (hv : v ∈ l.take n)
    (hpv : p v = false) (hp : ∀ w ∈ l, p w → ¬ r v w) : l.countP p < n := by
  have hdrop : (l.drop n).countP p = 0 := List.countP_eq_zero.mpr fun w hw hpw =>
    hp w (List.mem_of_mem_drop hw) hpw (rel_of_mem_drop hl hv hw)
  have htake : (l.take n).countP p < (l.take n).length := List.countP_le_length.lt_of_ne fun heq =>
    Bool.false_ne_true (hpv ▸ List.countP_eq_length.mp heq v hv)
  calc l.countP p = (l.take n).countP p + (l.drop n).countP p := by
        rw [← List.countP_append, List.take_append_drop]
    _ < n := by rw [hdrop]; exact htake.trans_le (List.length_take_le n l)

/-- To cut a list first and to filter it first come to the same only when the filter leaves out
nothing before the cut, or everything behind it. -/
theorem filter_take_eq_iff {p : α → Bool} :
    (l.take n).filter p = (l.filter p).take n ↔
      (∀ v ∈ l.take n, p v = true) ∨ ∀ v ∈ l.drop n, p v = false := by
  have hsplit : l.filter p = (l.take n).filter p ++ (l.drop n).filter p := by
    rw [← List.filter_append, List.take_append_drop]
  constructor
  · intro heq
    have hlength := congrArg List.length heq
    rw [List.length_take, hsplit, List.length_append] at hlength
    by_cases hall : ∀ v ∈ l.take n, p v = true
    · exact .inl hall
    · have hlt : ((l.take n).filter p).length < n :=
        (List.length_filter_le p _).lt_of_ne
          (fun hsame => hall (List.length_filter_eq_length_iff.mp hsame)) |>.trans_le
          (List.length_take_le n l)
      have hnone : ((l.drop n).filter p).length = 0 := by omega
      exact .inr fun v hv => Bool.eq_false_iff.mpr
        (List.filter_eq_nil_iff.mp (List.length_eq_zero_iff.mp hnone) v hv)
  · rintro (hall | hnone)
    · rw [hsplit, List.filter_eq_self.mpr hall]
      rcases le_total n l.length with hle | hle
      · rw [List.take_append_of_le_length (List.length_take_of_le hle).ge,
          List.take_of_length_le (List.length_take_le n l)]
      · rw [List.drop_eq_nil_of_le hle, List.filter_nil, List.append_nil, List.take_take, min_self]
    · rw [hsplit, List.filter_eq_nil_iff.mpr fun v hv => Bool.eq_false_iff.mp (hnone v hv),
        List.append_nil]
      exact (List.take_of_length_le
        ((List.length_filter_le p _).trans (List.length_take_le n l))).symm

end Ranked
