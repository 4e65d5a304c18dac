import CharacterSheet.Table
import CharacterSheet.Text.Blank

/-!
# Files of variables

A file of variables holds a name and a value on each line, such as `export SPEED = "5"  # metres`.
A line that has another form is skipped.  A value may refer to other variables: `${NAME}`, or
`${NAME:-text}` with a text for the case that there is no such variable.
-/

namespace CharacterSheet.EnvFile

open Text (isBlank)

def isBreak (c : Char) : Bool := c = '\n' || c = '\r'

/-- Blanks that do not end a line. -/
def isGap (c : Char) : Bool := isBlank c && !isBreak c

def skipGap (cs : List Char) : List Char := cs.dropWhile isGap

/-- The rest of the text after the end of a line, if nothing but a comment stands before it. -/
def endLine? (cs : List Char) : Option (List Char) :=
  let cs := match skipGap cs with
    | '#' :: rest => rest.dropWhile (!isBreak ·)
    | rest => rest
  match cs with
  | [] => some []
  | c :: rest => if isBreak c then some rest else none

/-- The rest of the text after the current line. -/
def skipLine (cs : List Char) : List Char := (cs.dropWhile (!isBreak ·)).drop 1

/-- A word at the start of a line has no meaning of its own. -/
def skipExport (cs : List Char) : List Char :=
  let word := "export".toList
  let rest := cs.drop word.length
  if word.isPrefixOf cs && rest.head?.any isGap then skipGap rest else cs

/-- A text in quotes and what follows it.  A backslash stays with the character after it, which may
be a quote but not the end of a line. -/
def quoted (quote : Char) : List Char → Option (List Char × List Char)
  | [] => none
  | '\\' :: '\n' :: _ => none
  | '\\' :: c :: rest => (quoted quote rest).map fun r ↦ ('\\' :: c :: r.1, r.2)
  | c :: rest =>
    if c = quote then some ([], rest) else (quoted quote rest).map fun r ↦ (c :: r.1, r.2)

/-- What the escapes in double quotes stand for. -/
def doubleEscapes : List (Char × Char) :=
  [('\\', '\\'), ('\'', '\''), ('"', '"'), ('a', '\x07'), ('b', '\x08'), ('f', '\x0c'),
    ('n', '\n'), ('r', '\r'), ('t', '\t'), ('v', '\x0b')]

/-- What the escapes in single quotes stand for. -/
def singleEscapes : List (Char × Char) := [('\\', '\\'), ('\'', '\'')]

def unescape (escapes : List (Char × Char)) : List Char → List Char
  | [] => []
  | [c] => [c]
  | c :: d :: rest =>
    if c = '\\' then match escapes.lookup d with
      | some e => e :: unescape escapes rest
      | none => c :: unescape escapes (d :: rest)
    else c :: unescape escapes (d :: rest)

/-- Drops a comment after a blank, and the blanks at the end. -/
def withoutComment : List Char → List Char
  | [] => []
  | c :: rest =>
    if isBlank c && (rest.dropWhile isBlank).head? = some '#' then []
    else c :: withoutComment rest

/-- A part of a line with what follows it, or what is left where the line goes wrong. -/
abbrev Part (α : Type) := Except (List Char) (α × List Char)

/-- What is left if a part is not found. -/
def orElseLeft {α : Type} (cs : List Char) : Option (α × List Char) → Part α
  | some r => .ok r
  | none => .error cs

/-- The value of a variable: what follows the equals sign. -/
def readValue (cs : List Char) : Part (List Char) :=
  let line := cs.takeWhile (!isBreak ·)
  match skipGap cs with
  | '\'' :: rest =>
    orElseLeft cs ((quoted '\'' rest).map fun r ↦ (unescape singleEscapes r.1, r.2))
  | '"' :: rest =>
    orElseLeft cs ((quoted '"' rest).map fun r ↦ (unescape doubleEscapes r.1, r.2))
  | _ => .ok (Text.trim (withoutComment line), cs.drop line.length)

/-- The name of a variable, in single quotes or not.  A comment has none. -/
def readName (cs : List Char) : Part (Option (List Char)) :=
  match cs with
  | '#' :: _ => .ok (none, cs)
  | '\'' :: rest =>
    let name := rest.takeWhile (· != '\'')
    match rest.drop name.length with
    | _ :: after => if name.isEmpty then .error cs else .ok (some name, after)
    | [] => .error cs
  | cs =>
    let name := cs.takeWhile fun c ↦ !(c = '=' || c = '#' || isBlank c)
    if name.isEmpty then .error cs else .ok (some name, cs.drop name.length)

/-- A name with its value, if it has one. -/
abbrev Binding := String × Option String

/-- Reads one line, or more if a quoted value goes over several. -/
def readLine (cs : List Char) : Except (List Char) (Option Binding × List Char) := do
  let (name, rest) ← readName (skipExport cs)
  let rest := skipGap rest
  let (value, rest) ← match rest with
    | '=' :: rest => do
      let (value, rest) ← readValue rest
      pure (some (String.ofList value), rest)
    | rest => pure (none, rest)
  match endLine? rest with
  | some rest' => return (name.map fun n ↦ (String.ofList n, value), rest')
  | none => throw rest

/-- Reads line after line; where a line goes wrong, the rest of it is skipped. -/
def readLines : Nat → List Char → List Binding
  | 0, _ => []
  | fuel + 1, cs =>
    match cs.dropWhile isBlank with
    | [] => []
    | cs => match readLine cs with
      | .ok (some b, rest) => b :: readLines fuel rest
      | .ok (none, rest) => readLines fuel rest
      | .error left => readLines fuel (skipLine left)

/-! ## References -/

/-- A reference to a variable, with a fallback text, and what follows it. -/
def reference? (cs : List Char) : Option (String × String × List Char) :=
  match cs with
  | '$' :: '\x7b' :: rest =>
    let name := rest.takeWhile fun c ↦ c != ':' && c != '\x7d'
    match rest.drop name.length with
    | '\x7d' :: after => some (String.ofList name, "", after)
    | ':' :: '-' :: more =>
      let fallback := more.takeWhile (· != '\x7d')
      match more.drop fallback.length with
      | _ :: after => some (String.ofList name, String.ofList fallback, after)
      | [] => none
    | _ => none
  | _ => none

/-- Replaces the references in a value; a variable without a value counts as empty. -/
def expand (known : String → Option (Option String)) : Nat → List Char → List Char
  | 0, cs => cs
  | _ + 1, [] => []
  | fuel + 1, c :: cs =>
    match reference? (c :: cs) with
    | some (name, fallback, rest) =>
      let text := match known name with
        | some v => v.getD ""
        | none => fallback
      text.toList ++ expand known fuel rest
    | none => c :: expand known fuel cs

/-- Replaces references in the values of bindings; earlier bindings count before the variables of
the surroundings. -/
def resolve (surroundings : Table String) (bs : List Binding) : Table (Option String) :=
  bs.foldl (fun done b ↦
    let known (name : String) : Option (Option String) :=
      done.get? name <|> (surroundings.get? name).map some
    done.set b.1 (b.2.map fun v ↦ String.ofList (expand known (v.length + 1) v.toList))) .empty

/-- The variables of a file, which may begin with a byte order mark. -/
def read (surroundings : Table String) (cs : List Char) : Table (Option String) :=
  let cs := if cs.head? = some '\ufeff' then cs.drop 1 else cs
  resolve surroundings (readLines (cs.length + 1) cs)

end CharacterSheet.EnvFile
