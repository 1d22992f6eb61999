/-!
# Trimming and scrubbing

`Text.trim` removes the blanks at both ends of a text. A blank is a character with the Unicode
property White_Space. The class is wider than that of the core library, and leaves out the zero
width space and the byte order mark, which have no such property.

`Text.scrub` makes a text fit to stand in SQL outside of any quotes: it removes the special symbols,
then the blanks at both ends. Nothing that is left can open a quote, a comment or a placeholder.
-/

namespace SqlAssembly.Text

/-- Whether a character has the Unicode property White_Space. -/
def isBlank (c : Char) : Bool :=
  let n := c.toNat
  (9 ≤ n && n ≤ 13) || n == 0x20 || n == 0x85 || n == 0xA0 || n == 0x1680 ||
    (0x2000 ≤ n && n ≤ 0x200A) || n == 0x2028 || n == 0x2029 || n == 0x202F || n == 0x205F ||
    n == 0x3000

/-- The characters without the blanks before the first and after the last other one. -/
def trimChars (l : List Char) : List Char :=
  ((l.dropWhile isBlank).reverse.dropWhile isBlank).reverse

theorem mem_of_mem_trimChars {l : List Char} {c : Char} (h : c ∈ trimChars l) : c ∈ l := by
  have hend := (List.dropWhile_sublist isBlank).subset (List.mem_reverse.1 h)
  exact (List.dropWhile_sublist isBlank).subset (List.mem_reverse.1 hend)

/-- The text without the blanks at its two ends. -/
def trim (s : String) : String :=
  String.ofList (trimChars s.toList)

/-- Whether the text has no character other than blanks. -/
def isBlankText (s : String) : Bool :=
  s.toList.all isBlank

/-- The symbols that must not reach SQL text. -/
def specialSymbols : List Char :=
  ['[', ']', '\x7b', '\x7d', '(', ')', '<', '>', '|', '\\', '/', '\'', '"', '\x60', '~', '!', '@',
    '#', '$', '%', '^', '&', '*', '+', '=', ';', ':', '?', ',', '-', '№']

/-- Whether a character is one of the special symbols. -/
def isSpecial (c : Char) : Bool :=
  specialSymbols.contains c

/-- The text without special symbols and without blanks at its ends. -/
def scrub (s : String) : String :=
  String.ofList (trimChars (s.toList.filter fun c => !isSpecial c))

/-- No special symbol is left. -/
theorem isSpecial_of_mem_scrub {s : String} {c : Char} (h : c ∈ (scrub s).toList) :
    isSpecial c = false := by
  rw [scrub, String.toList_ofList] at h
  simpa using (List.mem_filter.1 (mem_of_mem_trimChars h)).2

end SqlAssembly.Text
