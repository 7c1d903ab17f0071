import TraceInquest.Text.Case

/-! # Languages by file extension

* **`extensionLabels`** — the known extensions with the label of their language, the primary
  language first.
* **`detectLanguage filename`** — the label of the language of a file, or the empty text. -/

namespace TraceInquest

/-- The known file extensions and the labels of their languages. -/
def extensionLabels : List (String × String) :=
  [("rb", "ruby"), ("erb", "erb"), ("rake", "ruby"), ("ts", "typescript"),
   ("tsx", "typescript"), ("js", "javascript"), ("jsx", "javascript"), ("py", "python"),
   ("java", "java"), ("go", "go"), ("php", "php"), ("cs", "csharp"), ("cpp", "cpp"),
   ("c", "c"), ("h", "c")]

/-- The extensions of the primary language. -/
def primaryExtensions : List String := ["rb", "erb", "rake"]

/-- The extensions of the other languages. -/
def secondaryExtensions : List String :=
  (extensionLabels.map (·.1)).filter fun extension => !primaryExtensions.contains extension

/-- The text after the last full stop, if there is one. -/
def extension? (filename : List Char) : Option (List Char) :=
  if filename.contains '.' then some (filename.reverse.takeWhile (· != '.')).reverse else none

/-- The label of the language of a file, or the empty text. Capitals in the extension do not
matter. -/
def detectLanguage (filename : String) : String :=
  match extension? filename.toList with
  | some extension =>
    (extensionLabels.lookup (String.ofList (extension.map Text.lowerAscii))).getD ""
  | none => ""

end TraceInquest
