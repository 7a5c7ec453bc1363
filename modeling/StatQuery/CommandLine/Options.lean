import StatQuery.Dict

/-!
# Options on a command line

Words are read from left to right, and the first one that is out of place ends the reading. An option
is written `--name value` or `--name=value`; a word that begins with a dash is a value only in the
second form. After a lone `--` there are no options and no commands any more.
-/

namespace StatQuery.CommandLine

/-- An option that may be given once. -/
structure OptionKind where
  name : String
  /-- Which values it takes; a flag takes none. -/
  accepts : Option (String → Bool)

/-- What may stand on a command line before the name of a command, or after it. -/
structure Grammar where
  options : List OptionKind
  /-- Whether the version can be asked for. -/
  hasVersion : Bool
  /-- The largest number of words that are not options. -/
  operands : Nat
  /-- The names of the commands that may follow. -/
  commands : List String

/-- What has been read. -/
structure Scanned where
  /-- The values of the options that were given; a flag has the empty value. -/
  values : Dict String
  operands : List String
  /-- The command that follows, and the words after it. -/
  command : Option (String × List String)

/-- How reading ends. -/
inductive Outcome (α : Type) where
  | refused
  /-- The version was asked for. -/
  | version
  | read (value : α)

/-- Nothing read so far. -/
def Scanned.nothing : Scanned := ⟨.empty, [], none⟩

/-- Whether a word is in the place of an option: it begins with a dash and has more. -/
def isDashed (word : String) : Bool := word.startsWith "-" && word ≠ "-"

/-- The name of a long option and the value written with it. -/
def splitLong (word : String) : String × Option String :=
  let chars := word.toList.drop 2
  let name := String.ofList (chars.takeWhile (· ≠ '='))
  match chars.dropWhile (· ≠ '=') with
  | [] => (name, none)
  | _ :: value => (name, some (String.ofList value))

/-- Notes the value of an option, unless it has one already or does not take this one. -/
def Scanned.note? (scanned : Scanned) (name value : String) (accepts : String → Bool) :
    Option Scanned :=
  if scanned.values.contains name || !accepts value then none
  else some { scanned with values := scanned.values.insert name value }

/-- Adds operands, unless there are too many. -/
def Scanned.addOperands (grammar : Grammar) (scanned : Scanned) (words : List String) :
    Outcome Scanned :=
  let operands := scanned.operands ++ words
  if grammar.operands < operands.length then .refused
  else .read { scanned with operands := operands }

/-- Reads words from left to right. -/
def scan (grammar : Grammar) : List String → Scanned → Outcome Scanned
  | [], scanned => .read scanned
  | word :: rest, scanned =>
    if word = "--" then scanned.addOperands grammar rest
    else if word.startsWith "--" then
      let (name, value) := splitLong word
      if grammar.hasVersion && name = "version" then
        if value.isSome then .refused else .version
      else
        match grammar.options.find? (·.name = name) with
        | none => .refused
        | some kind =>
          match kind.accepts, value, rest with
          | none, some _, _ => .refused
          | none, none, rest =>
            match scanned.note? name "" (fun _ => true) with
            | none => .refused
            | some scanned => scan grammar rest scanned
          | some accepts, some value, rest =>
            match scanned.note? name value accepts with
            | none => .refused
            | some scanned => scan grammar rest scanned
          | some _, none, [] => .refused
          | some accepts, none, value :: rest =>
            if isDashed value then .refused
            else
              match scanned.note? name value accepts with
              | none => .refused
              | some scanned => scan grammar rest scanned
    else if isDashed word then
      if grammar.hasVersion && word.startsWith "-V" then .version else .refused
    else if word ∈ grammar.commands then .read { scanned with command := some (word, rest) }
    else
      match scanned.addOperands grammar [word] with
      | .read scanned => scan grammar rest scanned
      | outcome => outcome

end StatQuery.CommandLine
