/-! # Lower case

* **`lowerAscii c`** — the lower case of a character as far as it is an ASCII letter.
* **`lower text`** — the same for a text; enough to compare with names that are ASCII. -/

namespace TraceInquest.Text

/-- The lower case of a character as far as that is an ASCII letter: the ASCII capitals have one,
and so has the Kelvin sign, whose lower case is `k`. Other characters stay. -/
def lowerAscii (c : Char) : Char := if c == '\u212A' then 'k' else c.toLower

/-- A text with every letter that has an ASCII lower case in lower case. -/
def lower (text : String) : String := String.ofList (text.toList.map lowerAscii)

end TraceInquest.Text
