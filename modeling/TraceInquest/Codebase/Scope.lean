import TraceInquest.Source.Language

/-! # The scope of an investigation

* **`Scope`** — which files count as sources, where the files of frames are looked for, and how
  much is shown.
* **`takeUpTo limit items`** — the first items of a list; a negative limit counts from its end. -/

namespace TraceInquest

/-- What an investigation looks at. -/
structure Scope where
  /-- Groups of endings of file names, the most important group first. -/
  extensionGroups : List (List String) :=
    [primaryExtensions.map ("." ++ ·), secondaryExtensions.map ("." ++ ·)]
  /-- Names of directories that are passed over at every depth. -/
  excludedFolders : List String := ["node_modules", "dist", "build", ".git", "vendor", "tmp"]
  /-- The directories in which the file of a frame is looked for, in order. -/
  resolutionPrefixes : List String := ["", "src", "app"]
  /-- How many lines a window shows before and after its target. -/
  contextRadius : Int := 3
  /-- How many frames of a trace are investigated. -/
  maxFrames : Int := 5
  /-- How many files of a codebase are summarised. -/
  maxFiles : Int := 50
  /-- How many seconds a frame may take, if that is limited. -/
  frameTimeout : Option Float := none

/-- Whether no time at all is allowed for a frame. -/
def Scope.allowsNoTime (scope : Scope) : Bool :=
  match scope.frameTimeout with
  | some seconds => seconds <= 0
  | none => false

/-- Whether the time for a frame runs out; `late` says whether the work on it takes longer than the
limit, if there is one. -/
def Scope.timesOut (scope : Scope) (late : Bool) : Bool :=
  scope.allowsNoTime || (late && scope.frameTimeout.isSome)

/-- The first items of a list, at most `limit` of them; a negative limit leaves out as many items
at the end. -/
def takeUpTo {α : Type} (limit : Int) (items : List α) : List α :=
  if limit < 0 then items.take (items.length - limit.natAbs) else items.take limit.toNat

@[simp] theorem takeUpTo_natCast {α : Type} (limit : Nat) (items : List α) :
    takeUpTo limit items = items.take limit := by
  have : ¬ (limit : Int) < 0 := by omega
  simp [takeUpTo, this]

/-- What is taken is a beginning of the list. -/
theorem takeUpTo_isPrefix {α : Type} (limit : Int) (items : List α) :
    takeUpTo limit items <+: items := by
  unfold takeUpTo
  split <;> exact List.take_prefix _ _

end TraceInquest
