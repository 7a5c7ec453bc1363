import StatQuery.Text.Unprintable

/-!
# Quoted texts

How a message shows a text: between double quotes, with what would not show spelled out. An
apostrophe stays as it is, and so does every character that has a shape of its own.
-/

namespace StatQuery.Quoted

/-- A code point spelled in lower-case hexadecimal. -/
def spelled (c : Char) : List Char :=
  ['\\', 'u', '\x7b'] ++ Nat.toDigits 16 c.toNat ++ ['\x7d']

/-- What stands for a character between the quotes. -/
def encodeChar (c : Char) : List Char :=
  if c = '\x00' then ['\\', '0']
  else if c = '\t' then ['\\', 't']
  else if c = '\n' then ['\\', 'n']
  else if c = '\r' then ['\\', 'r']
  else if c = '"' then ['\\', '"']
  else if c = '\\' then ['\\', '\\']
  else if c < ' ' || c = '\x7f' then spelled c
  else if c < '\x7f' then [c]
  else if Unprintable.contains c then spelled c
  else [c]

/-- A text between double quotes. -/
def encode (text : String) : String :=
  String.ofList ('"' :: text.toList.flatMap encodeChar ++ ['"'])

/-- Texts between brackets, each quoted. -/
def encodeList (texts : List String) : String :=
  "[" ++ ", ".intercalate (texts.map encode) ++ "]"

/-- A quote, a backslash, an invisible and a combining character are spelled out; `é` is not. -/
example : encode "q\"\\é\u200b\u0301'" = "\"q\\\"\\\\é\\u\x7b200b\x7d\\u\x7b301\x7d'\"" := by
  decide +kernel

end StatQuery.Quoted
