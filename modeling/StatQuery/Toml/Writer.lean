import StatQuery.Toml.Scan

/-!
# Writing TOML text

Sections of settings, each under a header of its own. A string takes the plainest form that can hold
it: on one line before several, and raw before escaped.
-/

namespace StatQuery.Toml.Writer

/-- Whether a character cannot stand raw in any string. -/
def isControl (c : Char) : Bool := c ≠ '\n' && !Scan.isPlain c

/-- The escape of a character that has a short one, or of a control character. -/
def escape (c : Char) : List Char :=
  if c = '\x08' then ['\\', 'b']
  else if c = '\t' then ['\\', 't']
  else if c = '\n' then ['\\', 'n']
  else if c = '\x0c' then ['\\', 'f']
  else if c = '\r' then ['\\', 'r']
  else if c = '"' then ['\\', '"']
  else if c = '\\' then ['\\', '\\']
  else
    let digit (n : Nat) := (Nat.digitChar n).toUpper
    ['\\', 'u', '0', '0', digit (c.toNat / 16), digit (c.toNat % 16)]

/-- The content between double quotes. On several lines a line break stays, and so do two quotes in a
row; `quotes` counts those just before. -/
def escaped (lines : Bool) : (quotes : Nat) → List Char → List Char
  | _, [] => []
  | quotes, c :: rest =>
    if c = '"' then
      if lines && quotes < 2 then '"' :: escaped lines (quotes + 1) rest
      else escape c ++ escaped lines 0 rest
    else if c = '\n' && lines then c :: escaped lines 0 rest
    else if c = '\t' || c = '\n' || c = '\\' || isControl c then escape c ++ escaped lines 0 rest
    else c :: escaped lines 0 rest

/-- The length of the longest run of a mark; `run` counts the marks just before. -/
def longestRun (mark : Char) : (run : Nat) → List Char → Nat
  | run, [] => run
  | run, c :: rest =>
    if c = mark then longestRun mark (run + 1) rest else max run (longestRun mark 0 rest)

/-- The forms of a string. -/
inductive Style where
  | basic
  | literal
  | basicLines
  | literalLines
  deriving DecidableEq, Repr

/-- The form that a text is written in. -/
def style (text : List Char) : Style :=
  let raw := !text.any isControl
  let unescaped := raw && !text.contains '\\'
  let oneLine := !text.contains '\n'
  if unescaped && longestRun '"' 0 text = 0 && oneLine then .basic
  else if raw && longestRun '\'' 0 text = 0 && oneLine then .literal
  else if unescaped && longestRun '"' 0 text ≤ 2 then .basicLines
  else if raw && longestRun '\'' 0 text ≤ 2 then .literalLines
  else if oneLine then .basic
  else .basicLines

/-- The line break after the opening marks of a text with line breaks. -/
def opening (text : List Char) : List Char := if text.contains '\n' then ['\n'] else []

/-- A text in some form. -/
def styled (text : List Char) : Style → List Char
  | .basic => '"' :: escaped false 0 text ++ ['"']
  | .literal => '\'' :: text ++ ['\'']
  | .basicLines => ['"', '"', '"'] ++ opening text ++ escaped true 0 text ++ ['"', '"', '"']
  | .literalLines => ['\'', '\'', '\''] ++ opening text ++ text ++ ['\'', '\'', '\'']

/-- A string value. -/
def string (s : String) : List Char := styled s.toList (style s.toList)

/-- Whether a character may stand in a bare key. -/
def isBare (c : Char) : Bool := c.isAlphanum || c = '_' || c = '-'

/-- A key: bare if it can be, or else in a form on one line. -/
def key (name : String) : List Char :=
  let text := name.toList
  let raw := !text.any fun c => c = '\n' || isControl c
  if !text.isEmpty && text.all isBare then text
  else if raw && !text.contains '\\' && !text.contains '"' then styled text .basic
  else if raw && !text.contains '\'' then styled text .literal
  else styled text .basic

/-- Keys with points between them. -/
def dotted : List String → List Char
  | [] => []
  | [name] => key name
  | name :: rest => key name ++ '.' :: dotted rest

/-- A value that a section can hold. -/
inductive Setting where
  | text (s : String)
  | number (n : Nat)
  | flag (b : Bool)
  deriving DecidableEq, Repr

/-- A setting as written. -/
def setting : Setting → List Char
  | .text s => string s
  | .number n => Nat.toDigits 10 n
  | .flag true => "true".toList
  | .flag false => "false".toList

/-- A table of settings under a header. -/
structure Section where
  path : List String
  settings : List (String × Setting)
  deriving DecidableEq, Repr

/-- A line for each setting. -/
def settings : List (String × Setting) → List Char
  | [] => []
  | (name, value) :: rest => key name ++ [' ', '=', ' '] ++ setting value ++ '\n' :: settings rest

/-- A section: its header and its settings. -/
def block (s : Section) : List Char :=
  '[' :: dotted s.path ++ [']', '\n'] ++ settings s.settings

/-- Sections with an empty line between them. -/
def blocks : List Section → List Char
  | [] => []
  | [s] => block s
  | s :: rest => block s ++ '\n' :: blocks rest

end StatQuery.Toml.Writer
