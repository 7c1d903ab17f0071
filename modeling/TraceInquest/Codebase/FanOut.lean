/-! # Work on several items at the same time

Items are worked on at the same time, each by itself, and a result is collected as soon as it is
there, with the number of its item. At the end the results are put in the order of the items.

* **`inNumberOrder collected`** — collected results in the order of their numbers. -/

namespace TraceInquest

/-- Collected results in the order of their numbers. -/
def inNumberOrder {α : Type} (collected : List (α × Nat)) : List α :=
  (collected.mergeSort fun a b => decide (a.2 ≤ b.2)).map (·.1)

end TraceInquest
