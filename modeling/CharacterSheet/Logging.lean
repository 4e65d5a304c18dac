import CharacterSheet.Event
import CharacterSheet.Settings

/-!
# Logging

The settings tell which log entries are written and how.  A level is known by its name, in small or
capital letters; any other name stands for the level of information.
-/

namespace CharacterSheet

/-- The severities from which on entries are written, by name. -/
def thresholdNames : List (String × Nat) :=
  [("CRITICAL", 50), ("FATAL", 50), ("ERROR", 40), ("WARN", 30), ("WARNING", 30), ("INFO", 20),
    ("DEBUG", 10), ("NOTSET", 0)]

/-- A letter as a capital letter; the dotless i and the long s have one too. -/
def capitalLetter (c : Char) : Char :=
  if c = '\u0131' then 'I' else if c = '\u017f' then 'S' else c.toUpper

namespace Settings

/-- The severity from which on entries are written. -/
def threshold (s : Settings) : Nat :=
  (thresholdNames.lookup (s.logLevel.map capitalLetter)).getD LogLevel.info.severity

/-- Whether entries are written as JSON. -/
def logsJson (s : Settings) : Bool := s.logFormat == "json"

/-- Whether an entry is written. -/
def writes (s : Settings) (e : LogEntry) : Bool := s.threshold ≤ e.level.severity

end Settings

/-- Fields of an entry that JSON does not hold as they are given: the time is the writer's own, and
without an error there is nothing to tell about one. -/
def replacedFields : List String := ["timestamp", "exc_info"]

/-- An entry as JSON holds it, without its time. -/
def LogEntry.document (e : LogEntry) : Value := .map <|
  [("event", Value.text e.event), ("level", .text e.level.name)].foldl
    (fun fields f ↦ Value.putField (.text f.1) f.2 fields)
    ((e.fields.filter fun f ↦ !replacedFields.contains f.1).map fun f ↦ (.text f.1, f.2))

end CharacterSheet
