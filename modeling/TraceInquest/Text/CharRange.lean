/-! # Sets of characters given by ranges of code points

A property of characters that a standard lists, such as "is a letter", is a list of closed
ranges of code points in ascending order.

* **`inRanges ranges n`** — whether some range holds `n`, stopping at the first range that
  starts after `n`.
* `inRanges_eq_true_iff` — for ascending ranges this is plain membership in one of them. -/

namespace TraceInquest.Text

/-- Whether `n` lies in one of the closed ranges, which ascend. -/
def inRanges : List (Nat × Nat) → Nat → Bool
  | [], _ => false
  | (low, high) :: rest, n =>
    if n < low then false
    else if n ≤ high then true
    else inRanges rest n

/-- Ranges that ascend: each starts after those before it have started and ended. -/
def Ascending (ranges : List (Nat × Nat)) : Prop :=
  ranges.Pairwise fun r s => r.1 < s.1 ∧ r.2 < s.1

instance (ranges : List (Nat × Nat)) : Decidable (Ascending ranges) :=
  inferInstanceAs (Decidable (ranges.Pairwise fun r s => r.1 < s.1 ∧ r.2 < s.1))

@[simp] theorem inRanges_nil (n : Nat) : inRanges [] n = false := rfl

/-- A code point found in ascending ranges lies in one of them. -/
theorem exists_mem_of_inRanges {ranges : List (Nat × Nat)} {n : Nat}
    (found : inRanges ranges n = true) : ∃ r ∈ ranges, r.1 ≤ n ∧ n ≤ r.2 := by
  induction ranges with
  | nil => simp at found
  | cons r rest ih =>
    obtain ⟨low, high⟩ := r
    by_cases below : n < low
    · simp [inRanges, below] at found
    · by_cases within : n ≤ high
      · exact ⟨(low, high), by simp, Nat.le_of_not_lt below, within⟩
      · obtain ⟨s, mem, bounds⟩ := ih (by simpa [inRanges, below, within] using found)
        exact ⟨s, by simp [mem], bounds⟩

/-- Membership in ascending ranges is membership in one of them. -/
theorem inRanges_eq_true_iff {ranges : List (Nat × Nat)} (ascending : Ascending ranges)
    {n : Nat} : inRanges ranges n = true ↔ ∃ r ∈ ranges, r.1 ≤ n ∧ n ≤ r.2 := by
  refine ⟨exists_mem_of_inRanges, ?_⟩
  induction ranges with
  | nil => simp
  | cons r rest ih =>
    obtain ⟨low, high⟩ := r
    obtain ⟨later, restAscending⟩ := List.pairwise_cons.mp ascending
    rintro ⟨s, mem, lowBound, highBound⟩
    rcases List.mem_cons.mp mem with rfl | mem
    · have : ¬ n < low := Nat.not_lt.mpr lowBound
      simp [inRanges, this, highBound]
    · have after : low < s.1 ∧ high < s.1 := later s mem
      by_cases within : n ≤ high
      · omega
      · by_cases below : n < low
        · omega
        · simpa [inRanges, below, within] using
            ih restAscending ⟨s, mem, lowBound, highBound⟩

end TraceInquest.Text
