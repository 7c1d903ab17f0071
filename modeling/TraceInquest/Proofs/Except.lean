import Mathlib.Data.List.Forall2

/-! # Work that may fail

What the parts of a piece of work came to when the whole of it ended well, and which of them failed
when it did not.

* **`except_bind_eq_ok`**, **`except_map_eq_ok`** — one step after another.
* **`except_bind_eq_error`**, **`except_map_eq_error`** — the first step that fails decides.
* **`except_mapError_eq_ok`** — a step whose faults get another name.
* **`except_mapM_eq_ok`**, **`except_mapM_eq_error`** — a step for each item of a list. -/

namespace TraceInquest

variable {ε α β : Type}

theorem except_bind_eq_ok {first : Except ε α} {next : α → Except ε β} {result : β} :
    (first >>= next) = .ok result ↔ ∃ value, first = .ok value ∧ next value = .ok result := by
  cases first with
  | error fault =>
    constructor
    · intro ended
      cases ended
    · rintro ⟨value, ended, -⟩
      cases ended
  | ok value =>
    constructor
    · intro ended
      exact ⟨value, rfl, ended⟩
    · rintro ⟨other, same, ended⟩
      rw [Except.ok.inj same]
      exact ended

theorem except_map_eq_ok {first : Except ε α} {change : α → β} {result : β} :
    first.map change = .ok result ↔ ∃ value, first = .ok value ∧ change value = result := by
  cases first with
  | error fault => simp [Except.map]
  | ok value => simp [Except.map]

/-- Work fails at its first step, or the first step ends well and the work fails behind it. -/
theorem except_bind_eq_error {first : Except ε α} {next : α → Except ε β} {fault : ε} :
    (first >>= next) = .error fault ↔
      first = .error fault ∨ ∃ value, first = .ok value ∧ next value = .error fault := by
  cases first with
  | error other => simp [bind, Except.bind]
  | ok value => simp [bind, Except.bind]

theorem except_map_eq_error {first : Except ε α} {change : α → β} {fault : ε} :
    first.map change = .error fault ↔ first = .error fault := by
  cases first <;> simp [Except.map]

theorem except_ok_bind {value : α} {next : α → Except ε β} :
    (.ok value : Except ε α) >>= next = next value := rfl

theorem except_mapError_eq_ok {δ : Type} {change : ε → δ} {first : Except ε α} {value : α} :
    first.mapError change = .ok value ↔ first = .ok value := by
  cases first <;> simp [Except.mapError]

/-- The work on a list ends well exactly if the work on each item does. -/
theorem except_mapM_eq_ok {step : α → Except ε β} {items : List α} {results : List β} :
    items.mapM step = .ok results ↔
      List.Forall₂ (fun item result => step item = .ok result) items results := by
  induction items generalizing results with
  | nil =>
    rw [List.mapM_nil, List.forall₂_nil_left_iff]
    constructor
    · intro ended
      exact (Except.ok.inj ended).symm
    · rintro rfl
      rfl
  | cons item items ih =>
    rw [List.mapM_cons, except_bind_eq_ok]
    constructor
    · rintro ⟨first, done, ended⟩
      obtain ⟨others, rest, ended⟩ := except_bind_eq_ok.mp ended
      obtain rfl := Except.ok.inj ended
      exact .cons done (ih.mp rest)
    · rintro (_ | ⟨done, rest⟩)
      exact ⟨_, done, except_bind_eq_ok.mpr ⟨_, ih.mpr rest, rfl⟩⟩

/-- If the work on each item ends well, the work on the list has their results. -/
theorem except_mapM_eq_ok_map {step : α → Except ε β} {result : α → β} {items : List α}
    (done : ∀ item ∈ items, step item = .ok (result item)) :
    items.mapM step = .ok (items.map result) := by
  rw [except_mapM_eq_ok, List.forall₂_map_right_iff]
  exact List.forall₂_same.mpr done

/-- The work on a list fails exactly if the work on some item does, while that on all items in front
of it ends well. -/
theorem except_mapM_eq_error {step : α → Except ε β} {items : List α} {fault : ε} :
    items.mapM step = .error fault ↔
      ∃ before item after, items = before ++ item :: after ∧
        (∀ other ∈ before, ∃ result, step other = .ok result) ∧ step item = .error fault := by
  induction items with
  | nil =>
    rw [List.mapM_nil]
    constructor
    · intro failed
      cases failed
    · rintro ⟨before, item, after, nothing, -⟩
      exact absurd nothing (by simp)
  | cons first items ih =>
    rw [List.mapM_cons, except_bind_eq_error]
    constructor
    · rintro (failed | ⟨result, done, failed⟩)
      · exact ⟨[], first, items, rfl, by simp, failed⟩
      · -- the first item is done, so the failure is among the others
        have others_failed : items.mapM step = .error fault := by
          rcases except_bind_eq_error.mp failed with failed | ⟨results, -, ended⟩
          · exact failed
          · cases ended
        obtain ⟨before, item, after, rfl, all_done, item_failed⟩ := ih.mp others_failed
        exact ⟨first :: before, item, after, rfl,
          List.forall_mem_cons.mpr ⟨⟨result, done⟩, all_done⟩, item_failed⟩
    · rintro ⟨before, item, after, split, all_done, item_failed⟩
      cases before with
      | nil =>
        obtain ⟨rfl, rfl⟩ := List.cons.inj split
        exact .inl item_failed
      | cons other before =>
        obtain ⟨rfl, rfl⟩ := List.cons.inj split
        -- the first item is done, and the work on the others fails
        obtain ⟨⟨result, done⟩, others_done⟩ := List.forall_mem_cons.mp all_done
        have others_failed := ih.mpr ⟨before, item, after, rfl, others_done, item_failed⟩
        exact .inr ⟨result, done, except_bind_eq_error.mpr (.inl others_failed)⟩

theorem exists_of_mem_mapM {step : α → Except ε β} {items : List α} {results : List β}
    (ended : items.mapM step = .ok results) {result : β} (mem : result ∈ results) :
    ∃ item ∈ items, step item = .ok result := by
  induction except_mapM_eq_ok.mp ended with
  | nil => simp at mem
  | cons done rest ih =>
    rcases List.mem_cons.mp mem with rfl | mem
    · exact ⟨_, List.mem_cons_self, done⟩
    · obtain ⟨item, item_mem, done⟩ := ih (except_mapM_eq_ok.mpr rest) mem
      exact ⟨item, List.mem_cons_of_mem _ item_mem, done⟩

end TraceInquest
