import CharacterSheet.Diagnostic
import CharacterSheet.Value

/-!
# Events

What the engine does is recorded as a list of events.  Each event has one log entry: a level, a
name and some named values.  Whether and how an entry is written is up to the logging library, and
it is assumed that writing one never fails.
-/

namespace CharacterSheet

inductive LogLevel where
  | debug | info | warning | error | critical
  deriving DecidableEq, Repr

namespace LogLevel

def name : LogLevel → String
  | debug => "debug"
  | info => "info"
  | warning => "warning"
  | error => "error"
  | critical => "critical"

def severity : LogLevel → Nat
  | debug => 10
  | info => 20
  | warning => 30
  | error => 40
  | critical => 50

def all : List LogLevel := [debug, info, warning, error, critical]

/-- Other names of levels. -/
def otherNames : List (String × LogLevel) :=
  [("msg", info), ("warn", warning), ("exception", error), ("fatal", critical)]

def ofName? (s : String) : Option LogLevel :=
  (all.find? fun l ↦ l.name == s) <|> otherNames.lookup s

end LogLevel

structure LogEntry where
  level : LogLevel
  event : String
  fields : List (String × Value)
  deriving Repr

/-- What has been recorded.  To record an event never stops what is going on: it is assumed that the
log entry of every event can be written.  For the penalty of `equipmentApplied` and the numbers of
`resourceClamped`, which are written at the level of debugging only, this is an assumption about
their size, because integers of more than `SourceError.digitLimit` digits cannot be written. -/
inductive Event where
  /-- A diagnostic was recorded; `caused` tells that an error in the source is attached. -/
  | reported (diagnostic : Diagnostic) (caused : Bool)
  | codeInvalid (code : String) (errors : Nat)
  | baselineCaptured
  | equipmentApplied (character : String) (items : Nat) (penalty : Int)
  | resourceClamped (character resource : String) (current max : Int)
  /-- A change made while a pass was running; `detail` names what was changed. -/
  | recomputeQueued (character change : String) (detail : List (String × String))
  | recomputed (character : String) (passes diagnostics : Nat)
  | rebuilt (character : String) (sources diagnostics : Nat)
  | directoryMissing (directory : String)
  | noContentFiles (directory : String)
  | fileSkipped (file error : String)
  | duplicateId (category id file : String)
  | contentLoaded (directory : String) (items injuries modules : Nat)
  | characterLoaded (character file : String)
  | contentRefused (error : String)
  deriving Repr

namespace Event

private def optional : Option String → Value
  | none => .null
  | some s => .text s

private def count (n : Nat) : Value := .int n

/-- The log entry of a diagnostic: a failed source is an error, anything else a warning. -/
def diagnosticEntry (d : Diagnostic) (caused : Bool) : LogEntry :=
  let fields := [("message", .text d.message), ("token", optional d.token),
    ("source", optional d.source)]
  match d.kind with
  | .sourceFailure => ⟨.error, d.kind.name, fields ++ [("exc_info", .bool caused)]⟩
  | _ => ⟨.warning, d.kind.name, fields⟩

def entry : Event → LogEntry
  | reported d caused => diagnosticEntry d caused
  | codeInvalid code errors =>
    ⟨.debug, "data_code_invalid", [("code", .text code), ("errors", count errors)]⟩
  | baselineCaptured => ⟨.debug, "baseline_captured", []⟩
  | equipmentApplied character items penalty =>
    ⟨.debug, "equipment_applied", [("character", .text character), ("items", count items),
      ("encumbrance_penalty", .int penalty)]⟩
  | resourceClamped character resource current max =>
    ⟨.debug, "resource_clamped", [("character", .text character), ("resource", .text resource),
      ("current", .int current), ("max", .int max)]⟩
  | recomputeQueued character change detail =>
    ⟨.debug, "recompute_queued", ("character", .text character) :: ("change", .text change)
      :: detail.map fun e ↦ (e.1, .text e.2)⟩
  | recomputed character passes diagnostics =>
    ⟨.debug, "character_recomputed", [("character", .text character), ("passes", count passes),
      ("diagnostics", count diagnostics)]⟩
  | rebuilt character sources diagnostics =>
    ⟨.info, "character_rebuilt", [("character", .text character), ("sources", count sources),
      ("diagnostics", count diagnostics)]⟩
  | directoryMissing directory =>
    ⟨.warning, "content_directory_not_found", [("directory", .text directory)]⟩
  | noContentFiles directory =>
    ⟨.warning, "no_content_yaml_files_found", [("directory", .text directory)]⟩
  | fileSkipped file error =>
    ⟨.warning, "content_file_load_error", [("file", .text file), ("error", .text error)]⟩
  | duplicateId kind id file =>
    ⟨.warning, "duplicate_content_id", [("section", .text kind), ("content_id", .text id),
      ("file", .text file)]⟩
  | contentLoaded directory items injuries modules =>
    ⟨.info, "content_loaded", [("directory", .text directory), ("items", count items),
      ("injuries", count injuries), ("modules", count modules)]⟩
  | characterLoaded character file =>
    ⟨.info, "character_loaded", [("character", .text character), ("file", .text file)]⟩
  | contentRefused error => ⟨.error, "content_error", [("error", .text error)]⟩

def diagnostic? : Event → Option Diagnostic
  | reported d _ => some d
  | _ => none

/-- The diagnostics among some events, in order. -/
def diagnostics (es : List Event) : List Diagnostic := es.filterMap diagnostic?

end Event

end CharacterSheet
