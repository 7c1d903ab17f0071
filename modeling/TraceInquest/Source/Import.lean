import TraceInquest.Source.Declaration

/-! # Imports

A line names a module it depends on if one of thirteen patterns finds it there.

* **`importPatterns`** — the thirteen patterns, the primary language first. -/

namespace TraceInquest

open Pattern

/-- A single or a double quote. -/
def quote : Pattern Captured := among "'\""

/-- A module between quotes. -/
def quotedModule : Pattern Captured :=
  seq [quote, capture .name (many1 fun c => c != '\'' && c != '"'), quote]

/-- A word that begins with an ASCII capital. -/
def constant : Pattern Captured := seq [one Char.isUpper, many Text.isWordChar]

/-- Capitalised words joined by double colons. -/
def constantPath : Pattern Captured :=
  capture .name (seq [constant, repeated (seq ["::", constant])])

/-- The patterns of imports, tried on a line without the blanks around it. -/
def importPatterns : List (Pattern Captured) :=
  [ seq [atWordEdge, "require", blanks1, quotedModule],
    seq [atWordEdge, "require_relative", blanks1, quotedModule],
    seq [atWordEdge, "load", blanks1, quotedModule],
    seq [atWordEdge, "include", blanks1, constantPath],
    seq [atWordEdge, "extend", blanks1, constantPath],
    seq [atWordEdge, "gem", blanks1, quotedModule],
    -- `import names from 'module'`
    seq [atWordEdge, "import", blanks1, few (· != '\n'), blanks1, "from", blanks1, quotedModule],
    -- `import 'module'`
    seq [atWordEdge, "import", blanks1, quotedModule],
    -- `require('module')`
    seq [atWordEdge, "require", blanks, "(", blanks, quotedModule, blanks, ")"],
    -- `from module import`
    seq [atStart, "from", blanks1, capture .name (many1 fun c => !Text.isBlank c), blanks1,
      "import", atWordEdge],
    -- `import module`, unless `from` follows on the line
    seq [atStart, "import", blanks1,
      notAhead (seq [many (· != '\n'), atWordEdge, "from", one Text.isBlank]),
      optional (seq ["static", blanks1]),
      capture .name (seq [many1 fun c => Text.isWordChar c || c == '.', optional ".*"])],
    -- `use module;`
    seq [atStart, "use", blanks1, capture .name (many1 fun c => Text.isWordChar c || c == '\\'),
      blanks, ";"],
    -- `#include <module>`
    seq [atStart, "#", blanks, "include", blanks1, among "<\"",
      capture .name (many1 fun c => c != '>' && c != '"'), among ">\""] ]

end TraceInquest
