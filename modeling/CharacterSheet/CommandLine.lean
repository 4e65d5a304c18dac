import CharacterSheet.CommandLine.Request
import CharacterSheet.Content.Load
import CharacterSheet.Session

/-!
# The command line

Two commands: `validate` checks data codes, `recompute` loads, builds and prints a character.
-/

namespace CharacterSheet.CommandLine

structure Outcome where
  status : Nat
  output : String := ""
  deriving DecidableEq, Repr

/-- What ends the program without an answer. -/
inductive Crash where
  | settings (e : SettingsError)
  | content (e : ContentError)
  | source (e : SourceError)
  | engine (e : Failure)
  /-- An integer in the answer has too many digits. -/
  | unwritable
  deriving DecidableEq, Repr

def Crash.message : Crash → String
  | settings e => e.message
  | content e => e.message
  | source e => e.message
  | engine e => e.message
  | unwritable => Unwritable.overlong.message

def print (v : Value) : Except Crash String :=
  if Json.isWritable v then .ok (Json.pretty v ++ "\n") else .error .unwritable

def verdictDocument (code : String) (v : DataCode.Verdict) : Value := .ofFields
  [("code", .text code), ("is_valid", .bool v.isValid), ("errors", .ofTexts v.errors)]

/-- Checks data codes; the status tells whether all of them are valid. -/
def validate (codes : List String) : Except Crash Outcome := do
  let verdicts ← codes.mapM fun code ↦ (DataCode.check (.text code)).mapError .source
  return {
    status := if verdicts.all DataCode.Verdict.isValid then 0 else 1
    output := ← print (.list (List.zipWith verdictDocument codes verdicts)) }

def diagnosticDocument (d : Diagnostic) : Value := .ofFields
  [("kind", .text d.kind.name), ("message", .text d.message), ("token", .ofText? d.token),
    ("source", .ofText? d.source)]

def characterDocument (c : Character) : Value := .ofFields
  [("name", .text c.name), ("state", c.state.document),
    ("diagnostics", .list ((c.buildDiagnostics ++ c.diagnostics).map diagnosticDocument))]

/-- Content that cannot be used ends the program with a status, anything else without one. -/
def refuseContent (e : ContentError) : Except Crash Outcome :=
  if e.severity = .fatal then .error (.content e) else .ok { status := 2 }

/-- Loads, builds and prints a character. -/
def recompute (l : Loader) (root : Entry) (settings : Settings) (path directory : String) :
    Except Crash Outcome :=
  match (loadContent l root directory).2 with
  | .error e => refuseContent e
  | .ok catalog => match (loadCharacter l root path (.ok settings) catalog).2 with
    | .error e => refuseContent e
    | .ok character =>
      match Session.execute [] .rebuild { settings, character } with
      | (.error e, _) => .error (.engine e)
      | (.ok _, s) => (print (characterDocument s.character)).map fun output ↦
        { status := 0, output }

/-- Runs the program on its arguments.  Settings are made once the arguments are understood. -/
def run (l : Loader) (root : Entry) (settings : Except SettingsError Settings)
    (arguments : List String) : Except Crash Outcome :=
  match Request.ofArguments arguments with
  | .error stop => .ok { status := stop.status }
  | .ok request => do
    let settings ← settings.mapError .settings
    match request with
    | .validate codes => validate codes
    | .recompute path content =>
      recompute l root settings path (content.getD settings.contentDirectory)

end CharacterSheet.CommandLine
