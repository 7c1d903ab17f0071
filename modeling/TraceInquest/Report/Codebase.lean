import TraceInquest.Codebase.Analysis

/-! # The report on a codebase

The report has a section for each file with the number of its lines, its first functions and its
first imports.

* **`reportCodebase working root analyses`** — the report as Markdown. -/

namespace TraceInquest

/-- What is reported of a codebase without sources. -/
def noFilesMessage : String := "*No relevant files found in the current codebase.*\n"

/-- How many functions of a file are listed. -/
def maxListedFunctions : Nat := 10

/-- How many imports of a file are listed. -/
def maxListedImports : Nat := 5

/-- The first items of a list, with dots behind them if there are more. -/
def shortList (limit : Nat) (items : List String) : String :=
  String.intercalate ", " (items.take limit) ++ (if limit < items.length then "..." else "")

/-- A line of a section, which is left out if there is nothing to list. -/
def listingLine (title : String) (limit : Nat) (items : List String) : String :=
  if items.isEmpty then "" else "- **" ++ title ++ ":** " ++ shortList limit items ++ "\n"

/-- The section of a file that is shown under a name. -/
def reportFile (shown : String) (analysis : FileAnalysis) : String :=
  "### 📄 `" ++ shown ++ "`\n\n" ++
    "- **Lines:** " ++ toString analysis.lineCount ++ "\n" ++
    listingLine "Functions" maxListedFunctions analysis.functions ++
    listingLine "Key Imports" maxListedImports analysis.imports ++ "\n"

/-- The name under which a file is shown: the way to it from the root of the codebase, both seen
from the working directory, or its path as it is if there is no root. The way to the empty path
is unknown. -/
def shownPath? (working : List String) (root path : String) : Option String :=
  if root.isEmpty then some path else Path.relative? working path root

/-- The report on a codebase, unless a file of it has the empty path. -/
def reportCodebase (working : List String) (root : String) (analyses : List FileAnalysis) :
    Option String :=
  if analyses.isEmpty then some noFilesMessage
  else
    (analyses.mapM fun analysis =>
      (shownPath? working root analysis.path).map fun shown => reportFile shown analysis).map
      fun sections => "## 📁 Codebase Summary\n\n" ++ String.join sections

end TraceInquest
