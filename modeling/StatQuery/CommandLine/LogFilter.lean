import StatQuery.Config.Environment

/-!
# Log filters

A filter is a list of directives between commas. A directive is a level, or the name of a part of the
program and perhaps of a span and a field in it, with a level after an equals sign or without. Blanks
may stand around a directive only if it has no equals sign.
-/

namespace StatQuery.LogFilter

/-- The names of the levels; they are also numbered from zero to five. -/
def levels : List String := ["off", "error", "warn", "info", "debug", "trace"]

/-- Whether a word stands for a level. -/
def isLevel (word : List Char) : Bool :=
  String.ofList (word.map Char.toLower) ∈ levels ||
    (Config.number? (String.ofList word)).any fun n => n ≤ 5

/-- Whether a name may begin with a character. -/
def startsName (c : Char) : Bool :=
  c.isAlphanum || c = '-' || c = ':' || c = '_' || '\x7f' < c

/-- Whether what follows a name or a span is accepted: nothing or, if it can be set, an equals sign
and perhaps a level. -/
def acceptsLevel (settable : Bool) : List Char → Bool
  | [] => true
  | '=' :: level => settable && (level.isEmpty || isLevel level)
  | _ => false

/-- Whether a span in brackets and what follows it are accepted, after the opening bracket. A field
of the span stands in braces. -/
def acceptsSpan (settable : Bool) (text : List Char) : Bool :=
  match text.dropWhile fun c => c ≠ ']' && c ≠ '\x7b' with
  | '\x7b' :: field =>
    field.head? ≠ some '\x7d' &&
      match field.dropWhile (· ≠ '\x7d') with
      | '\x7d' :: ']' :: rest => acceptsLevel settable rest
      | _ => false
  | ']' :: rest => acceptsLevel settable rest
  | _ => false

/-- A text without the blanks around it. -/
def trim (text : List Char) : List Char :=
  ((text.dropWhile Char.isWhitespace).reverse.dropWhile Char.isWhitespace).reverse

/-- Whether a directive is accepted. -/
def acceptsDirective (text : List Char) : Bool :=
  let settable := trim text = text
  match trim text with
  | [] => false
  | '[' :: rest => acceptsSpan settable rest
  | c :: rest =>
    startsName c &&
      match rest.dropWhile fun c => c ≠ '=' && c ≠ '[' with
      | '[' :: rest => acceptsSpan settable rest
      | rest => acceptsLevel settable rest

/-- The parts between commas. -/
def split : List Char → List (List Char)
  | [] => [[]]
  | c :: rest =>
    match split rest with
    | [] => [[c]]
    | part :: parts => if c = ',' then [] :: part :: parts else (c :: part) :: parts

/-- Whether a filter is accepted; empty directives are passed over. -/
def accepts (filter : String) : Bool :=
  ((split filter.toList).filter fun part => !part.isEmpty).all acceptsDirective

example : accepts "info,statistics=debug" = true := by decide +kernel
example : accepts "statistics=loud" = false := by decide +kernel

end StatQuery.LogFilter
