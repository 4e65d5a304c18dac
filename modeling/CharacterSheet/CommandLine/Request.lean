import CharacterSheet.Folder
import CharacterSheet.Number.Integer

/-!
# What a command line asks for

An argument that begins with a hyphen is an option, unless it looks like a negative number, holds a
blank, or comes after a double hyphen.  Options may be cut short, and their value may follow an
equals sign.  There are two commands: `validate` takes data codes, `recompute` takes the file of a
character and, as an option, the content directory.
-/

namespace CharacterSheet.CommandLine

/-! ## Arguments -/

inductive Argument where
  | plain (text : String)
  /-- A double hyphen: all arguments after it are plain. -/
  | separator
  | help
  /-- The content directory, which is the argument after it unless it has a value of its own. -/
  | content (value : Option String)
  | unknown
  /-- An option with a value that it does not take. -/
  | misused
  /-- A beginning that several options share. -/
  | ambiguous
  deriving DecidableEq, Repr

namespace Argument

def ownValue? (cs : List Char) : Option String :=
  match cs.dropWhile (· != '=') with
  | [] => none
  | _ :: value => some (String.ofList value)

/-- What follows the short option for help: short options may be written as one, but they take no
value. -/
def ofShortHelp (cs : List Char) : Argument :=
  match cs.dropWhile (· = 'h') with
  | '=' :: _ => misused
  | '-' :: _ => misused
  | _ => help

/-- Digits of any script, with at most one point among them. -/
def isNumber (cs : List Char) : Bool :=
  let cs := (if cs.getLast? = some '\n' then cs.dropLast else cs).map Integer.asciiDigit
  match cs.dropWhile Integer.isDigit with
  | [] => !cs.isEmpty
  | '.' :: fraction => !fraction.isEmpty && fraction.all Integer.isDigit
  | _ => false

/-- An argument that begins like no option. -/
def ofRest (arg : String) : Argument :=
  match arg.toList with
  | '-' :: cs => if cs.isEmpty || isNumber cs || cs.contains ' ' then plain arg else unknown
  | _ => plain arg

def ofLong (option : String) (value : Option String) : Argument :=
  if option = "--content" then content value else if value.isSome then misused else help

/-- What an argument before the double hyphen is to a command with some long options. -/
def ofText (options : List String) (arg : String) : Argument :=
  let cs := arg.toList
  match cs with
  | '-' :: '-' :: _ =>
    match options.filter fun o ↦ (cs.takeWhile (· != '=')).isPrefixOf o.toList with
    | [] => ofRest arg
    | [option] => ofLong option (ownValue? cs)
    | _ => ambiguous
  | '-' :: 'h' :: rest => ofShortHelp rest
  | _ => ofRest arg

def ofTexts (options : List String) : List String → List Argument
  | [] => []
  | "--" :: rest => separator :: rest.map plain
  | arg :: rest => ofText options arg :: ofTexts options rest

end Argument

/-! ## Requests -/

inductive Request where
  | validate (codes : List String)
  | recompute (character : String) (content : Option String)
  deriving DecidableEq, Repr

inductive Stop where
  | help | misuse
  deriving DecidableEq, Repr

def Stop.status : Stop → Nat
  | help => 0
  | misuse => 2

/-- A misuse that shows at the end only: help is given before it. -/
def misuseAfter {α : Type} (rest : Except Stop α) : Except Stop α := do
  let _ ← rest
  throw .misuse

namespace Request

/-- The plain arguments, if there is nothing else. -/
def codes : List Argument → Except Stop (List String)
  | [] => .ok []
  | .plain text :: rest => (codes rest).map (text :: ·)
  | .separator :: rest => codes rest
  | .help :: _ => .error .help
  | .unknown :: rest => misuseAfter (codes rest)
  | _ :: _ => .error .misuse

/-- The file of a character and the last content directory; a separator has to stand beside the
file. -/
def recomputation (character content : Option String) : List Argument → Except Stop Request
  | [] => match character with
    | some c => .ok (recompute (Path.normalize c) (content.map Path.normalize))
    | none => .error .misuse
  | .content (some value) :: rest => recomputation character (some value) rest
  | .content none :: .plain value :: rest => recomputation character (some value) rest
  | .separator :: .plain text :: rest =>
    if character.isSome then misuseAfter (recomputation character content rest)
    else recomputation (some text) content rest
  | .plain text :: .separator :: rest =>
    if character.isSome then misuseAfter (recomputation character content rest)
    else recomputation (some text) content rest
  | .plain text :: rest =>
    if character.isSome then misuseAfter (recomputation character content rest)
    else recomputation (some text) content rest
  | .separator :: rest => misuseAfter (recomputation character content rest)
  | .unknown :: rest => misuseAfter (recomputation character content rest)
  | .help :: _ => .error .help
  | _ :: _ => .error .misuse

/-- What the arguments after a command ask for. -/
def ofCommand (command : String) (rest : List String) : Except Stop Request :=
  if command = "validate" then do
    let texts ← codes (Argument.ofTexts ["--help"] rest)
    if texts.isEmpty then throw .misuse else return validate texts
  else if command = "recompute" then
    let arguments := Argument.ofTexts ["--help", "--content"] rest
    if arguments.contains .ambiguous then .error .misuse
    else recomputation none none arguments
  else .error .misuse

def ofArguments : List String → Except Stop Request
  | [] => .error .misuse
  | "--" :: _ => .error .misuse
  | arg :: rest => match Argument.ofText ["--help"] arg with
    | .plain command => ofCommand command rest
    | .help => .error .help
    | .unknown => misuseAfter (ofArguments rest)
    | _ => .error .misuse

end Request

end CharacterSheet.CommandLine
