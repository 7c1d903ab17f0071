import TraceInquest.Proofs.Source.ImportTexts
import TraceInquest.Proofs.Source.Names

/-! # Layouts of imports

A line in one of nine layouts imports one module and nothing else.

* **`ImportLine module line`** — the layouts, each with the module that it imports.
* **`imports_exactly`** — the imports of a file with such a line. -/

namespace TraceInquest

open Pattern

/-! ## Layouts -/

/-- The layouts of imports, each with the module that it imports. -/
inductive ImportLine : (module line : String) → Prop
  | quoted {keyword quote : String} (module : ModuleName) (leads : keyword ∈ quotingKeywords)
    (marked : quote ∈ quotes) :
    ImportLine module.text (keyword ++ " " ++ quote ++ module.text ++ quote)
  | importFrom {word quote : String} (module : ModuleName) (is_word : Text.IsWord word.toList)
    (marked : quote ∈ quotes) :
    ImportLine module.text ("import " ++ word ++ " from " ++ quote ++ module.text ++ quote)
  | requireCall {word quote : String} (module : ModuleName) (is_word : Text.IsWord word.toList)
    (marked : quote ∈ quotes) :
    ImportLine module.text
      ("const " ++ word ++ " = require(" ++ quote ++ module.text ++ quote ++ ")")
  | fromImport {word : String} (module : ModuleName) (is_word : Text.IsWord word.toList) :
    ImportLine module.text ("from " ++ module.text ++ " import " ++ word)
  | systemHeader (module : ModuleName) : ImportLine module.text ("#include <" ++ module.text ++ ">")
  | ownHeader (module : ModuleName) : ImportLine module.text ("#include \"" ++ module.text ++ "\"")
  | constants {keyword path : String} (leads : keyword ∈ constantKeywords)
    (is_path : IsConstantPath path.toList) : ImportLine path (keyword ++ " " ++ path)
  | dotted {module ending : String} (nonempty : module.toList ≠ [])
    (all : ∀ c ∈ module.toList, isModuleChar c = true) (ended : ending ∈ ["", ";"]) :
    ImportLine module ("import " ++ module ++ ending)
  | used {module : String} (nonempty : module.toList ≠ [])
    (all : ∀ c ∈ module.toList, isUsedChar c = true) : ImportLine module ("use " ++ module ++ ";")

variable {line : String}

/-- A line in which the patterns find one module alone imports it and nothing else. -/
theorem ImportsOnly.extractImports_eq {module : String}
    (finds : ImportsOnly module.toList line.toList) (is_line : Text.IsLine line)
    (trimmed : Text.IsTrimmed line.toList) : extractImports line = [module] := by
  have stripped : Text.strip line.toList = line.toList :=
    Text.strip_of_ends trimmed.first trimmed.last
  obtain ⟨pattern, listed, is_found⟩ := finds.is_found
  obtain ⟨found, find⟩ := Option.isSome_iff_exists.mp is_found
  have captured := finds.only pattern listed found (mem_findAll_of_find? find)
  refine namesIn_eq_singleton is_line List.not_mem_nil
    (mem_namesInLine.mpr ⟨pattern, listed, found, ?_, ?_⟩) fun other named _ => ?_
  · rw [stripped]
    exact mem_findAll_of_find? find
  · rw [captured, String.ofList_toList]
  · obtain ⟨pattern, listed, found, find, rfl⟩ := mem_namesInLine.mp named
    rw [stripped] at find
    rw [finds.only pattern listed found find, String.ofList_toList]

/-! ## Any of the layouts -/

namespace ImportLine

variable {module : String}

/-- The patterns find the module of a line alone. -/
theorem importsOnly (imported : ImportLine module line) :
    ImportsOnly module.toList line.toList := by
  cases imported with
  | quoted module leads marked =>
    obtain ⟨mark, quote_eq, marked⟩ := exists_mark marked
    refine importsOnly_quoted leads marked ?_
    simp only [String.toList_append, quote_eq, List.append_assoc]
    rfl
  | importFrom module is_word marked =>
    obtain ⟨mark, quote_eq, marked⟩ := exists_mark marked
    refine importsOnly_importFrom is_word marked ?_
    simp only [String.toList_append, quote_eq, List.append_assoc]
    rfl
  | requireCall module is_word marked =>
    obtain ⟨mark, quote_eq, marked⟩ := exists_mark marked
    refine importsOnly_requireCall is_word marked ?_
    simp only [String.toList_append, quote_eq, List.append_assoc]
    rfl
  | fromImport module is_word =>
    refine importsOnly_fromImport is_word ?_
    simp only [String.toList_append, List.append_assoc]
    rfl
  | systemHeader module =>
    refine @importsOnly_header _ module ('<', '>') (by decide) ?_
    simp only [String.toList_append, List.append_assoc]
    rfl
  | ownHeader module =>
    refine @importsOnly_header _ module ('"', '"') (by decide) ?_
    simp only [String.toList_append, List.append_assoc]
    rfl
  | constants leads is_path =>
    refine importsOnly_constants leads is_path ?_
    simp only [String.toList_append, List.append_assoc]
    rfl
  | dotted nonempty all ended =>
    refine importsOnly_dotted nonempty all ended ?_
    simp only [String.toList_append, List.append_assoc]
  | used nonempty all =>
    refine importsOnly_used nonempty all ?_
    simp only [String.toList_append, List.append_assoc]
    rfl

theorem isLine (imported : ImportLine module line) : Text.IsLine line := by
  have keyword_line : ∀ keyword ∈ quotingKeywords ++ constantKeywords, Text.IsLine keyword := by decide
  have mark_line : ∀ quote ∈ quotes, Text.IsLine quote := by decide
  have ending_line : ∀ ending ∈ ["", ";"], Text.IsLine ending := by decide
  cases imported with
  | quoted module leads marked =>
    have keyword := keyword_line _ (List.mem_append_left _ leads)
    simp only [Text.isLine_append, keyword, mark_line _ marked, module.isSolid.isLine]
    decide
  | importFrom module is_word marked | requireCall module is_word marked =>
    simp only [Text.isLine_append, mark_line _ marked, module.isSolid.isLine,
      is_word.isSolid.isLine]
    decide
  | fromImport module is_word =>
    simp only [Text.isLine_append, module.isSolid.isLine, is_word.isSolid.isLine]
    decide
  | systemHeader module | ownHeader module =>
    simp only [Text.isLine_append, module.isSolid.isLine]
    decide
  | constants leads is_path =>
    have keyword := keyword_line _ (List.mem_append_right _ leads)
    simp only [Text.isLine_append, keyword, is_path.isSolid.isLine]
    decide
  | dotted nonempty all ended =>
    have module_line := Text.IsSolid.isLine
      ⟨nonempty, fun c mem => not_isBlank_of_isModuleChar (all c mem)⟩
    simp only [Text.isLine_append, module_line, ending_line _ ended]
    decide
  | used nonempty all =>
    have module_line := Text.IsSolid.isLine
      ⟨nonempty, fun c mem => not_isBlank_of_isUsedChar (all c mem)⟩
    simp only [Text.isLine_append, module_line]
    decide

/-- A line begins with a keyword and ends with a module, a word or a mark. -/
theorem isTrimmed (imported : ImportLine module line) : Text.IsTrimmed line.toList := by
  have ends {first middle last : String}
      (starts : first.toList ≠ [] ∧ ∀ c ∈ first.toList.head?, Text.isBlank c = false)
      (solid : Text.IsSolid last.toList) : Text.IsTrimmed (first ++ (middle ++ last)).toList := by
    rw [String.toList_append, String.toList_append]
    exact Text.isTrimmed_append starts.1 starts.2 solid.nonempty
      fun c mem => solid.all c (List.mem_of_getLast? mem)
  have keyword_starts : ∀ keyword ∈ quotingKeywords ++ constantKeywords,
      keyword.toList ≠ [] ∧ ∀ c ∈ keyword.toList.head?, Text.isBlank c = false := by decide
  have mark_solid : ∀ quote ∈ quotes, Text.IsSolid quote.toList := by decide
  cases imported with
  | @quoted keyword quote module leads marked =>
    simpa only [String.append_assoc] using @ends keyword (" " ++ quote ++ module.text) quote
      (keyword_starts keyword (List.mem_append_left _ leads)) (mark_solid quote marked)
  | @importFrom word quote module is_word marked =>
    simpa only [String.append_assoc] using @ends "import " (word ++ " from " ++ quote ++ module.text)
      quote (by decide) (mark_solid quote marked)
  | @requireCall word quote module is_word marked =>
    simpa only [String.append_assoc] using
      @ends "const " (word ++ " = require(" ++ quote ++ module.text ++ quote) ")" (by decide)
        (by decide)
  | @fromImport word module is_word =>
    simpa only [String.append_assoc] using @ends "from " (module.text ++ " import ") word (by decide)
      is_word.isSolid
  | systemHeader module =>
    simpa only [String.append_assoc] using @ends "#include <" module.text ">" (by decide) (by decide)
  | ownHeader module =>
    simpa only [String.append_assoc] using @ends "#include \"" module.text "\"" (by decide) (by decide)
  | @constants keyword module leads is_path =>
    simpa only [String.append_assoc] using @ends keyword " " module
      (keyword_starts keyword (List.mem_append_right _ leads)) is_path.isSolid
  | @dotted module ending nonempty all ended =>
    have module_solid := Text.IsSolid.mk nonempty fun c mem => not_isBlank_of_isModuleChar (all c mem)
    simp only [List.mem_cons, List.not_mem_nil, or_false] at ended
    rcases ended with rfl | rfl
    · simpa only [String.append_empty, String.empty_append] using
        @ends "import " "" module (by decide) module_solid
    · simpa only [String.append_assoc] using @ends "import " module ";" (by decide) (by decide)
  | @used module nonempty all =>
    simpa only [String.append_assoc] using @ends "use " module ";" (by decide) (by decide)

end ImportLine

/-- A line of one of the layouts imports its module and nothing else. -/
theorem imports_exactly {module line : String} (imported : ImportLine module line) :
    extractImports line = [module] :=
  imported.importsOnly.extractImports_eq imported.isLine imported.isTrimmed

/-- A keyword in the place of the imported word, and a module with a dash and a letter that is not
ASCII. -/
theorem imports_exactly_fromFrom :
    ImportLine "./é-tude.js"
        ("import " ++ "from" ++ " from " ++ "\"" ++ "./é-tude.js" ++ "\"") ∧
      extractImports "import from from \"./é-tude.js\"" = ["./é-tude.js"] := by
  have imported : ImportLine "./é-tude.js"
      ("import " ++ "from" ++ " from " ++ "\"" ++ "./é-tude.js" ++ "\"") :=
    .importFrom ⟨"./é-tude.js", by decide, by decide⟩ ⟨by decide, by decide⟩ (by decide)
  exact ⟨imported, imports_exactly imported⟩

/-- A header is not named between single quotes. -/
theorem not_forall_singleQuoted_header :
    ¬∀ module : ModuleName, extractImports ("#include '" ++ module.text ++ "'") = [module.text] := by
  intro imported
  have of_stdio := imported ⟨"stdio.h", by decide, by decide⟩
  revert of_stdio
  decide +kernel

end TraceInquest
