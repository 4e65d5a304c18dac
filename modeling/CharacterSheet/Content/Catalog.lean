import CharacterSheet.Content.Error
import CharacterSheet.Content.Loader
import CharacterSheet.Event

/-!
# Catalogs

A catalog holds all content under its ids.  Content comes in sections, each a list of documents; the
first definition of an id counts.
-/

namespace CharacterSheet

structure Catalog where
  items : Table Item := .empty
  injuries : Table Injury := .empty
  modules : Table Module := .empty

namespace Catalog

def size (c : Catalog) : Nat := c.items.size + c.injuries.size + c.modules.size

/-- The sections of a content file. -/
def sectionNames : List String := ["items", "injuries", "modules"]

/-- What an entry is called in a message. -/
def entryName (fields : List (Value × Value)) : Value :=
  (Value.field? fields "id").getD (.text "unknown")

/-- Checks an entry.  If it is not valid, the error says what it is called. -/
def readEntry {α : Type} (levels : Nat) (category file : String)
    (check : Value → Except (List Issue) α) (v : Value) : Except ContentError α :=
  match v.alone with
  | .map fields => match check v with
    | .ok a => .ok a
    | .error issues =>
      match (entryName fields).written levels with
      | .ok id => .error (.invalidEntry id category file issues)
      | .error u => .error (.unwritableId u)
  | _ => .error (.entryNotAMap category file)

/-- Checks the entries of a section in order; a section may be absent. -/
def readSection {α : Type} (levels : Nat) (category file : String)
    (check : Value → Except (List Issue) α) (document : List (Value × Value)) :
    Except ContentError (List α) :=
  match (Value.field? document category).map Value.alone with
  | none => .ok []
  | some .null => .ok []
  | some (.list vs) => vs.mapM (readEntry levels category file check)
  | some _ => .error (.sectionNotAList category file)

/-- The content of a section of any of the three kinds. -/
inductive Section where
  | items (xs : List Item)
  | injuries (xs : List Injury)
  | modules (xs : List Module)

/-- Checks a section that is known by its name only. -/
def readNamed (l : Loader) (category file : String) (document : List (Value × Value)) :
    Except ContentError Section :=
  match category with
  | "items" => (readSection l.levels category file l.item document).map .items
  | "injuries" => (readSection l.levels category file l.injury document).map .injuries
  | "modules" => (readSection l.levels category file l.module document).map .modules
  | _ => match (Value.field? document category).map Value.alone with
    | none => .ok (.items [])
    | some .null => .ok (.items [])
    | some (.list _) => .error (.unknownSection category)
    | some _ => .error (.sectionNotAList category file)

/-- Adds definitions to a table, keeping the first of each id; the others are recorded. -/
def define {α : Type} (category file : String) (id : α → String) :
    Table α → List α → Table α × List Event
  | t, [] => (t, [])
  | t, x :: xs =>
    if t.contains (id x) then
      let r := define category file id t xs
      (r.1, .duplicateId category (id x) file :: r.2)
    else define category file id (t.set (id x) x) xs

/-- Adds the content of a document.  Sections before one that is refused have been added, and what
was recorded about them stands. -/
def addDocument (l : Loader) (file : String) (document : List (Value × Value)) (c : Catalog) :
    List Event × Except ContentError Catalog :=
  match readSection l.levels "items" file l.item document with
  | .error e => ([], .error e)
  | .ok items =>
    let (items, events) := define "items" file Item.id c.items items
    match readSection l.levels "injuries" file l.injury document with
    | .error e => (events, .error e)
    | .ok injuries =>
      let (injuries, events') := define "injuries" file Injury.id c.injuries injuries
      match readSection l.levels "modules" file l.module document with
      | .error e => (events ++ events', .error e)
      | .ok modules =>
        let (modules, events'') := define "modules" file Module.id c.modules modules
        (events ++ events' ++ events'', .ok { items, injuries, modules })

end Catalog

end CharacterSheet
