import SqlAssembly.Fault
import SqlAssembly.Text.Scrub
import SqlAssembly.Unicode.Word

/-!
# Row counts

The number of rows that a plan reports for its outermost node. The outermost node is the first line
of the plan, and what counts is the annotation `actual … rows=N`, with or without the timing; the
estimate, which has no word in front, does not. A line ends at a line feed, which takes one carriage
return before it along; a line feed at the very end starts no further line.

`rowCount` reads a whole plan. It never falls back to a default: a plan without the annotation, and
a number that does not fit 64 bits, are faults.
-/

namespace SqlAssembly

namespace Text

/-- The characters up to the first line feed, and those after it. -/
def splitLine : List Char → List Char × List Char
  | [] => ([], [])
  | c :: rest => if c = '\n' then ([], rest) else ((c :: (splitLine rest).1), (splitLine rest).2)

/-- Removes one carriage return from the end of the line. -/
def dropCarriageReturn (line : List Char) : List Char :=
  if line.getLast? = some '\r' then line.dropLast else line

/-- The first line of a text, if it has one. A carriage return counts as part of the line end only
where a line feed follows it. -/
def firstLine? (s : String) : Option String :=
  match s.toList with
  | [] => none
  | l =>
    let line := (splitLine l).1
    some (String.ofList (if l.contains '\n' then dropCarriageReturn line else line))

/-- The first line of the first text that has one. -/
def firstLineOf? (texts : List String) : Option String :=
  texts.findSome? firstLine?

end Text

namespace RowCount

/-- What follows `front` in a text that starts with it. -/
def after? (front l : List Char) : Option (List Char) :=
  if front.isPrefixOf l then some (l.drop front.length) else none

/-- What follows the timing and its blank, if a timing stands in front. -/
def afterTiming? (l : List Char) : Option (List Char) := do
  let rest ← after? "time=".toList l
  let word := rest.takeWhile fun c => !Text.isBlank c
  if word.isEmpty then none
  else after? [' '] (rest.dropWhile fun c => !Text.isBlank c)

/-- The digits of the number of rows, if it stands in front. -/
def rows? (l : List Char) : Option (List Char) := do
  let rest ← after? "rows=".toList l
  let digits := rest.takeWhile Unicode.isDigit
  if digits.isEmpty then none else some digits

/-- The digits of the annotation that a text starts with, if it starts with one. -/
def annotation? (l : List Char) : Option (List Char) := do
  let rest ← after? "actual ".toList l
  ((afterTiming? rest).bind rows?).or (rows? rest)

/-- The digits of the first annotation in a text. -/
def firstAnnotation? : List Char → Option (List Char)
  | [] => none
  | c :: rest => (annotation? (c :: rest)).or (firstAnnotation? rest)

/-- The number that digits stand for. The digits of other scripts are not read, and neither is a
number from `2 ^ 64` on; the fault is that of the first digit at which it shows. -/
def ofDigits (digits : List Char) : Except Fault Nat :=
  digits.foldlM (fun n c =>
    if !c.isDigit then .error (.execution (.foreignDigits (String.ofList digits)))
    else if Nat.pow 2 64 ≤ 10 * n + (c.toNat - 48) then
      .error (.execution (.countTooLarge (String.ofList digits)))
    else .ok (10 * n + (c.toNat - 48))) 0

/-- The number of rows that a line of a plan reports. -/
def ofLine (line : String) : Except Fault Nat :=
  match firstAnnotation? line.toList with
  | some digits => ofDigits digits
  | none => .error (.execution (.noRowCount line))

end RowCount

/-- The number of rows that a plan reports, given its texts of one or more lines each. -/
def rowCount (plan : List String) : Except Fault Nat :=
  match Text.firstLineOf? plan with
  | some line => RowCount.ofLine line
  | none => .error (.execution .emptyPlan)

end SqlAssembly
