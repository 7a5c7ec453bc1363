import StatQuery.Toml.Scan

/-!
# Strings in TOML

There are four forms: on one line or on several, and with escapes (between double quotes) or without
(between apostrophes). A form on several lines opens and closes with three marks; one or two marks
inside it are content, also right before the closing ones.
-/

namespace StatQuery.Toml.Text

/-- The value of a hexadecimal digit. -/
def hexValue? (c : Char) : Option Nat :=
  if '0' ≤ c && c ≤ '9' then some (c.toNat - 48)
  else if 'a' ≤ c && c ≤ 'f' then some (c.toNat - 87)
  else if 'A' ≤ c && c ≤ 'F' then some (c.toNat - 55)
  else none

/-- The number that hexadecimal digits stand for. -/
def hexNumber? (digits : List Char) : Option Nat :=
  digits.foldlM (fun n c => do return n * 16 + (← hexValue? c)) 0

/-- The character with a code point, which must be no surrogate. -/
def character? (code : Nat) : Option Char :=
  if code.isValidChar then some (Char.ofNat code) else none

/-- The character of an escape with `count` hexadecimal digits, and what stands after it. -/
def codePoint? (count : Nat) (text : List Char) : Option (Char × List Char) := do
  guard (count ≤ text.length)
  return (← character? (← hexNumber? (text.take count)), text.drop count)

/-- The character that an escape stands for, and what stands after it; the backslash has been taken. -/
def escape? : List Char → Option (Char × List Char)
  | 'b' :: rest => some ('\x08', rest)
  | 't' :: rest => some ('\t', rest)
  | 'n' :: rest => some ('\n', rest)
  | 'f' :: rest => some ('\x0c', rest)
  | 'r' :: rest => some ('\r', rest)
  | '"' :: rest => some ('"', rest)
  | '\\' :: rest => some ('\\', rest)
  | 'u' :: rest => codePoint? 4 rest
  | 'U' :: rest => codePoint? 8 rest
  | _ => none

/-- The content up to a closing mark, and what stands after the mark; `limit` bounds the number of
characters. -/
def lineContent (mark : Char) (escapes : Bool) : (limit : Nat) → List Char →
    Option (List Char × List Char)
  | 0, _ => none
  | _, [] => none
  | limit + 1, c :: rest =>
    if c = mark then some ([], rest)
    else if escapes && c = '\\' then do
      let (content, rest) ← escape? rest
      let (contents, rest) ← lineContent mark escapes limit rest
      return (content :: contents, rest)
    else if Scan.isPlain c then do
      let (contents, rest) ← lineContent mark escapes limit rest
      return (c :: contents, rest)
    else none

/-- What stands after blanks and line breaks. -/
def dropBlankLines : List Char → List Char
  | '\r' :: '\n' :: rest => dropBlankLines rest
  | c :: rest => if c = '\n' || Scan.isBlank c then dropBlankLines rest else c :: rest
  | [] => []

/-- What stands after the blanks and line breaks that a backslash at the end of a line swallows, if
it stands there. -/
def continuation? (text : List Char) : Option (List Char) :=
  (Scan.afterNewline? (text.dropWhile Scan.isBlank)).map dropBlankLines

/-- The content up to three closing marks, and what stands after them; `limit` bounds the number of
characters. -/
def linesContent (mark : Char) (escapes : Bool) : (limit : Nat) → List Char →
    Option (List Char × List Char)
  | 0, _ => none
  | _, [] => none
  | limit + 1, c :: rest =>
    if c = mark then
      let marks := (c :: rest).takeWhile (· = mark)
      if 3 ≤ marks.length then
        let extra := min 2 (marks.length - 3)
        some (List.replicate extra mark, (c :: rest).drop (extra + 3))
      else do
        let (contents, rest) ← linesContent mark escapes limit ((c :: rest).drop marks.length)
        return (marks ++ contents, rest)
    else if escapes && c = '\\' then
      match continuation? rest with
      | some rest => linesContent mark escapes limit rest
      | none => do
        let (content, rest) ← escape? rest
        let (contents, rest) ← linesContent mark escapes limit rest
        return (content :: contents, rest)
    else
      match Scan.afterNewline? (c :: rest) with
      | some rest => do
        let (contents, rest) ← linesContent mark escapes limit rest
        return ('\n' :: contents, rest)
      | none =>
        if Scan.isPlain c then do
          let (contents, rest) ← linesContent mark escapes limit rest
          return (c :: contents, rest)
        else none

/-- What stands after a line break, if the text begins with one. -/
def dropFirstNewline (text : List Char) : List Char := (Scan.afterNewline? text).getD text

/-- Takes a string on one line, after its opening mark. -/
def line (mark : Char) (escapes : Bool) : Scan String := fun text => do
  let (content, rest) ← lineContent mark escapes text.length text
  return (String.ofList content, rest)

/-- Takes a string on several lines, after its opening marks. -/
def lines (mark : Char) (escapes : Bool) : Scan String := fun text => do
  let body := dropFirstNewline text
  let (content, rest) ← linesContent mark escapes body.length body
  return (String.ofList content, rest)

/-- Takes a string of any form. -/
def string : Scan String
  | '"' :: '"' :: '"' :: rest => lines '"' true rest
  | '"' :: rest => line '"' true rest
  | '\'' :: '\'' :: '\'' :: rest => lines '\'' false rest
  | '\'' :: rest => line '\'' false rest
  | _ => none

end StatQuery.Toml.Text
