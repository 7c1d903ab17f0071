import TraceInquest.Proofs.Except
import TraceInquest.Settings.Basic

/-! # Settings that were checked

* **`readSetting_ok`** — a setting has what its default has and what reading it makes sure of.
* **`minimums_of_readSettings`** — the numbers among the settings are not below their minimums. -/

namespace TraceInquest

/-- An integer that is read from a minimum on is not below it. -/
theorem SettingValue.le_of_asIntegerFrom {minimum n : Int} {value : SettingValue}
    (ended : value.asIntegerFrom minimum = .ok n) : minimum ≤ n := by
  obtain ⟨m, -, checked⟩ := except_bind_eq_ok.mp ended
  split at checked
  · cases checked
  · rename_i not_below
    obtain rfl := Except.ok.inj checked
    exact Int.not_lt.mp not_below

/-- A setting has what its default has, if it is one for which the same is made sure when a value is
read. -/
theorem readSetting_ok {α : Type} {sources : SettingSources} {name : String} {default? : Option α}
    {read : SettingValue → Except SettingProblem α} {p : α → Prop} {setting : α}
    (of_default : ∀ value ∈ default?, p value)
    (of_read : ∀ value result, read value = .ok result → p result)
    (ended : readSetting sources name default? read = .ok setting) : p setting := by
  unfold readSetting at ended
  split at ended
  · exact of_read _ _ (except_mapError_eq_ok.mp ended)
  · obtain rfl := Except.ok.inj ended
    exact of_default _ rfl
  · cases ended

/-- The numbers among settings that were checked. -/
theorem minimums_of_readSettings {sources : SettingSources} {settings : Settings}
    (checked : readSettings sources = .ok settings) :
    0 ≤ settings.contextRadius ∧ 1 ≤ settings.maxFrames ∧ 1 ≤ settings.maxFiles := by
  have read := except_mapError_eq_ok.mp checked
  simp only [except_bind_eq_ok] at read
  obtain ⟨codebasePath, -, stackTraceFile, -, contextRadius, radius_read, maxFrames, frames_read,
    maxFiles, files_read, frameTimeout, -, artifactsDir, -, same⟩ := read
  obtain rfl := Except.ok.inj same
  have at_least {name : String} {default minimum n : Int} (default_ok : minimum ≤ default)
      (ended : readSetting sources name (some default) (SettingValue.asIntegerFrom minimum) =
        .ok n) : minimum ≤ n :=
    readSetting_ok (fun value mem => Option.some_inj.mp mem ▸ default_ok)
      (fun _ _ => SettingValue.le_of_asIntegerFrom) ended
  exact ⟨at_least (by decide) radius_read, at_least (by decide) frames_read,
    at_least (by decide) files_read⟩

end TraceInquest
