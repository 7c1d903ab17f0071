import Mathlib.Data.List.Perm.Basic
import Mathlib.Logic.Relation
import TraceInquest.Codebase.FanOut

/-! # In which order results come in

Whichever item is done first, what is collected at the end are results of all items, one for each,
and their numbers put them in the order of the items. So neither how long the work on an item
takes nor what comes of it shows in the result of another one.

* **`FanOut`**, **`FanOut.Step`** — work under way, and one item that is done.
* **`FanOut.Ends`** — whether the work on items can end with some results, as they come in.
* **`FanOut.ends_iff`** — it can end with any permutation of results of the items, and with
  nothing else.
* **`inNumberOrder_of_perm`** — the order in which results come in does not matter. -/

namespace TraceInquest

variable {α β : Type}

/-! ## Putting results in order -/

/-- Items stand in the order of their numbers. -/
theorem pairwise_snd_zipIdx (items : List α) (start : Nat) :
    (items.zipIdx start).Pairwise fun a b => a.2 < b.2 := by
  induction items generalizing start with
  | nil => exact List.Pairwise.nil
  | cons item items ih =>
    refine List.Pairwise.cons ?_ (ih (start + 1))
    rintro ⟨other, number⟩ mem
    exact List.le_snd_of_mem_zipIdx mem

/-- In whatever order the results of numbered items come in, the numbers restore the order of the
items. -/
theorem inNumberOrder_of_perm {results : List β} {collected : List (β × Nat)}
    (same : collected.Perm results.zipIdx) : inNumberOrder collected = results := by
  have strict := pairwise_snd_zipIdx results 0
  have ascending : (collected.mergeSort fun a b => decide (a.2 ≤ b.2)).Pairwise
      fun a b => decide (a.2 ≤ b.2) = true := by
    refine List.pairwise_mergeSort ?_ ?_ collected
    · intro a b c first second
      exact decide_eq_true (Nat.le_trans (of_decide_eq_true first) (of_decide_eq_true second))
    · intro a b
      simpa using Nat.le_total a.2 b.2
  have sorted_eq : (collected.mergeSort fun a b => decide (a.2 ≤ b.2)) = results.zipIdx := by
    have sorted_perm := (List.mergeSort_perm collected fun a b => decide (a.2 ≤ b.2)).trans same
    refine sorted_perm.eq_of_pairwise ?_ ascending (strict.imp fun less => ?_)
    · -- two results with the same number are one, as no number is given twice
      intro a b a_mem b_mem le ge
      have same_number : a.2 = b.2 :=
        Nat.le_antisymm (of_decide_eq_true le) (of_decide_eq_true ge)
      have a_found := List.mk_mem_zipIdx_iff_getElem?.mp (sorted_perm.mem_iff.mp a_mem)
      have b_found := List.mk_mem_zipIdx_iff_getElem?.mp b_mem
      rw [same_number, b_found] at a_found
      exact Prod.ext (Option.some.inj a_found).symm same_number
    · exact decide_eq_true (Nat.le_of_lt less)
  rw [inNumberOrder, sorted_eq, List.zipIdx_map_fst]

/-- Results that come in in the order of the items are in order already. -/
theorem inNumberOrder_map_zipIdx (work : Nat → α → β) (items : List α) :
    inNumberOrder (items.zipIdx.map fun (item, number) => (work number item, number)) =
      items.mapIdx work := by
  refine inNumberOrder_of_perm (List.Perm.of_eq ?_)
  apply List.ext_getElem <;> simp

/-! ## Work under way -/

/-- Work on several items at the same time. -/
structure FanOut (α β : Type) where
  /-- The items that are still worked on, with their numbers. -/
  pending : List (α × Nat)
  /-- The results that have come in, the first one first, with the numbers of their items. -/
  collected : List (β × Nat)

/-- Whether a result of a numbered item is one that the work on the item can come to. -/
def IsResultOf (work : α → β → Prop) (task : α × Nat) (result : β × Nat) : Prop :=
  work task.1 result.1 ∧ result.2 = task.2

namespace FanOut

/-- One of the items is done, whichever it is, and its result comes in. -/
inductive Step (work : α → β → Prop) : FanOut α β → FanOut α β → Prop where
  | finish {front behind : List (α × Nat)} {task : α × Nat} {result : β × Nat}
      {collected : List (β × Nat)} (done : IsResultOf work task result) :
      Step work ⟨front ++ task :: behind, collected⟩ ⟨front ++ behind, collected ++ [result]⟩

/-- Whether the work on items, each by itself, can end with some results, as they come in. -/
def Ends (work : α → β → Prop) (items : List α) (collected : List (β × Nat)) : Prop :=
  Relation.ReflTransGen (Step work) ⟨items.zipIdx, []⟩ ⟨[], collected⟩

variable {work : α → β → Prop}

/-- What comes in until the work ends are results of the items that were pending, in some
order. -/
theorem exists_order_of_run {state : FanOut α β} {collected : List (β × Nat)}
    (run : Relation.ReflTransGen (Step work) state ⟨[], collected⟩) :
    ∃ order later, order.Perm state.pending ∧ collected = state.collected ++ later ∧
      List.Forall₂ (IsResultOf work) order later := by
  induction run using Relation.ReflTransGen.head_induction_on with
  | refl => exact ⟨[], [], List.Perm.refl [], (List.append_nil _).symm, .nil⟩
  | head step _ ih =>
    obtain ⟨order, later, perm, collected_eq, results⟩ := ih
    cases step with
    | finish done =>
      refine ⟨_ :: order, _ :: later, ?_, ?_, .cons done results⟩
      · exact (perm.cons _).trans List.perm_middle.symm
      · rw [collected_eq, List.append_assoc]
        rfl

/-- Results of the pending items can come in in any order of the items. -/
theorem run_of_order {order pending : List (α × Nat)} {collected later : List (β × Nat)}
    (perm : order.Perm pending) (results : List.Forall₂ (IsResultOf work) order later) :
    Relation.ReflTransGen (Step work) ⟨pending, collected⟩ ⟨[], collected ++ later⟩ := by
  induction results generalizing pending collected with
  | nil =>
    rw [perm.nil_eq, List.append_nil]
  | @cons task result order later done results ih =>
    obtain ⟨front, behind, rfl⟩ := List.append_of_mem (perm.mem_iff.mp List.mem_cons_self)
    have others := (perm.trans List.perm_middle).cons_inv
    have rest := @ih (front ++ behind) (collected ++ [result]) others
    rw [List.append_assoc] at rest
    exact .head (.finish done) rest

/-- Results of numbered items, in the order of the items, are numbered results of the items. -/
theorem forall₂_isResultOf_zipIdx {items : List α} {start : Nat} {numbered : List (β × Nat)} :
    List.Forall₂ (IsResultOf work) (items.zipIdx start) numbered ↔
      ∃ results, List.Forall₂ work items results ∧ numbered = results.zipIdx start := by
  induction items generalizing start numbered with
  | nil =>
    constructor
    · rintro ⟨⟩
      exact ⟨[], .nil, rfl⟩
    · rintro ⟨results, ⟨⟩, rfl⟩
      exact .nil
  | cons item items ih =>
    constructor
    · rintro (_ | ⟨⟨done, number_eq⟩, rest⟩)
      obtain ⟨results, all_done, rfl⟩ := ih.mp rest
      exact ⟨_ :: results, .cons done all_done, congrArg (· :: _) (Prod.ext rfl number_eq)⟩
    · rintro ⟨results, _ | ⟨done, all_done⟩, rfl⟩
      exact .cons ⟨done, rfl⟩ (ih.mpr ⟨_, all_done, rfl⟩)

/-- The work on some items can end with any permutation of results of the items, one for each, and
with nothing else. -/
theorem ends_iff {items : List α} {collected : List (β × Nat)} :
    Ends work items collected ↔
      ∃ results, List.Forall₂ work items results ∧ collected.Perm results.zipIdx := by
  constructor
  · intro run
    obtain ⟨order, later, perm, rfl, results⟩ := exists_order_of_run run
    obtain ⟨numbered, numbered_results, same⟩ := List.perm_comp_forall₂ perm.symm results
    obtain ⟨results, all_done, rfl⟩ := forall₂_isResultOf_zipIdx.mp numbered_results
    exact ⟨results, all_done, same.symm⟩
  · rintro ⟨results, all_done, same⟩
    have numbered_results : List.Forall₂ (IsResultOf work) items.zipIdx results.zipIdx :=
      forall₂_isResultOf_zipIdx.mpr ⟨results, all_done, rfl⟩
    obtain ⟨order, perm, in_order⟩ : Relation.Comp List.Perm (List.Forall₂ (IsResultOf work))
        items.zipIdx collected := by
      rw [← List.forall₂_comp_perm_eq_perm_comp_forall₂]
      exact ⟨_, numbered_results, same.symm⟩
    exact run_of_order perm.symm in_order

end FanOut

end TraceInquest
