/-!
# Reading TOML text

A `Scan` takes characters off the front of a text and yields a value, or refuses the text. What is
wrong with a refused text is not told.
-/

namespace StatQuery.Toml

/-- Takes characters off a text. -/
abbrev Scan (α : Type) := StateT (List Char) Option α

namespace Scan

/-- The character to be taken next. -/
def peek : Scan (Option Char) := do return (← get).head?

/-- Takes a character, if there is one. -/
def advance : Scan Unit := modify List.tail

/-- Takes the given character. -/
def expect (c : Char) : Scan Unit := do
  if (← peek) = some c then advance else failure

/-- Takes the characters of a run. -/
def takeRun (inRun : Char → Bool) : Scan (List Char) := fun text =>
  some (text.takeWhile inRun, text.dropWhile inRun)

/-- The number of characters left, which bounds every loop of a scan. -/
def remaining : Scan Nat := do return (← get).length

/-- Whether a character is a space or a tab. -/
def isBlank (c : Char) : Bool := c = ' ' || c = '\t'

/-- Whether a character may stand in a string or a comment: it is no control character, or the tab. -/
def isPlain (c : Char) : Bool := c = '\t' || (' ' ≤ c && c ≠ '\x7f')

/-- Takes spaces and tabs. -/
def skipBlanks : Scan Unit := discard (takeRun isBlank)

/-- The text after a line break at its front. -/
def afterNewline? : List Char → Option (List Char)
  | '\n' :: rest => some rest
  | '\r' :: '\n' :: rest => some rest
  | _ => none

/-- Takes a line break. -/
def newline : Scan Unit := fun text => (afterNewline? text).map ((), ·)

/-- Takes a comment, if there is one. -/
def skipComment : Scan Unit := do
  if (← peek) = some '#' then discard (takeRun isPlain)

/-- Takes what may stand after a statement, up to and including the line break, if the text does not
end before. -/
def lineEnd : Scan Unit := do
  skipBlanks
  skipComment
  match ← peek with
  | none => return
  | some _ => newline

/-- Takes blanks, line breaks and comments; `limit` bounds the number of lines. -/
def skipLinesUpTo : (limit : Nat) → Scan Unit
  | 0 => return
  | limit + 1 => do
    skipBlanks
    match ← peek with
    | some '#' =>
      skipComment
      newline
      skipLinesUpTo limit
    | some '\n' | some '\r' =>
      newline
      skipLinesUpTo limit
    | _ => return

/-- Takes blanks, line breaks and comments. -/
def skipLines : Scan Unit := do skipLinesUpTo ((← remaining) + 1)

/-- What a scan yields for a whole text. -/
def run {α : Type} (scan : Scan α) (text : List Char) : Option α :=
  match scan text with
  | some (value, []) => some value
  | _ => none

end Scan

end StatQuery.Toml
