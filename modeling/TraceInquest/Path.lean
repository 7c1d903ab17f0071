import TraceInquest.Text.Lines

/-! # Paths as texts

A path is a text whose components are separated by slashes. What it denotes depends on a file
system; the functions here only look at the text.

* **`Path.join base path`** — `path` as seen from `base`.
* **`Path.relative? working path start`** — how to get from `start` to `path`, both seen from the
  working directory, where `..` cancels the component before it.
* **`Location`** — a path in the form in which messages show it, and its parent. -/

namespace TraceInquest

namespace Path

/-- The texts between slashes. -/
def components (path : String) : List String :=
  (Text.cutLines (· == '/') [[]] path.toList).map String.ofList

/-- Components joined by slashes. -/
def ofComponents (components : List String) : String := String.intercalate "/" components

/-- Whether a path starts at the root of the file system. -/
def isAbsolute (path : String) : Bool := path.toList.head? == some '/'

/-- `path` as seen from `base`: behind it and a slash, unless it is absolute. -/
def join (base path : String) : String :=
  if isAbsolute path then path
  else if base.isEmpty || base.toList.getLast? == some '/' then base ++ path
  else base ++ "/" ++ path

/-- The components that name something: no empty ones and no single dots. -/
def namingComponents (path : String) : List String :=
  (components path).filter fun part => part != "" && part != "."

/-- The components of an absolute path with one more behind it; two dots take the last away. -/
def stepInto (absolute : List String) (part : String) : List String :=
  if part = ".." then absolute.dropLast else absolute ++ [part]

/-- The components of a path seen from a working directory, without dots. -/
def absolute (working : List String) (path : String) : List String :=
  (namingComponents path).foldl stepInto (if isAbsolute path then [] else working)

/-- How many components two paths share at their beginning. -/
def sharedLength : List String → List String → Nat
  | a :: as, b :: bs => if a = b then sharedLength as bs + 1 else 0
  | _, _ => 0

/-- The way from `start` to `path`, both seen from a working directory; there is none to the
empty path. -/
def relative? (working : List String) (path start : String) : Option String :=
  if path.isEmpty then none
  else
    let origin := absolute working start
    let goal := absolute working path
    let shared := sharedLength origin goal
    let way := List.replicate (origin.length - shared) ".." ++ goal.drop shared
    some (if way.isEmpty then "." else ofComponents way)

end Path

/-- A path without repeated slashes, single dots and a slash at its end. -/
structure Location where
  /-- The slashes at the start: none, one, or exactly two. -/
  root : String
  /-- The components that name something, `..` included. -/
  parts : List String
  deriving DecidableEq, Repr

namespace Location

/-- Exactly two slashes at the start are kept, more are one. -/
def rootOf (path : String) : String :=
  match path.toList with
  | '/' :: '/' :: '/' :: _ => "/"
  | '/' :: '/' :: _ => "//"
  | '/' :: _ => "/"
  | _ => ""

/-- The location that a path names. -/
def ofPath (path : String) : Location := ⟨rootOf path, Path.namingComponents path⟩

/-- A location as a text; the working directory is a dot. -/
def text (location : Location) : String :=
  if location.root.isEmpty && location.parts.isEmpty then "."
  else location.root ++ Path.ofComponents location.parts

/-- The location without its last component. -/
def parent (location : Location) : Location := { location with parts := location.parts.dropLast }

/-- The location of an entry. -/
def child (location : Location) (name : String) : Location :=
  { location with parts := location.parts ++ [name] }

end Location

end TraceInquest
