import CharacterSheet.Content.Assemble
import CharacterSheet.Folder

/-!
# Loading content

Content is loaded from the files of a directory, a character from one file.  A content file that
cannot be read is recorded and skipped; one whose content is not valid stops the loading.
-/

namespace CharacterSheet

open ContentError

/-- Reads the document of a file.  Only a text that is no document counts as a file that cannot be
loaded; whatever else stops the reader is an error of its own. -/
def readBytes (l : Loader) (path : String) (bs : List Nat) : Except ContentError Value :=
  (l.read (Text.Utf8.read bs)).mapError fun
    | .notADocument => notADocument path
    | .crash c => readerCrash c

def Contents.read (l : Loader) (path : String) : Contents → Except ContentError Value
  | .bytes bs => readBytes l path bs
  | .document v => .ok v

/-- Loads the document of a file.  It has to be a map, and not an empty one. -/
def loadDocument (l : Loader) (root : Entry) (path : String) :
    Except ContentError (List (Value × Value)) :=
  match root.find path with
  | .error .missing => .error (fileMissing path)
  | .error .throughFile => .error (fileRefused path .notADirectory)
  | .error .tooLong => .error (fileRefused path .nameTooLong)
  | .error .noPath => .error brokenPath
  | .ok (.folder _) => .error (fileRefused path .isADirectory)
  | .ok (.file contents) => do
    let v ← contents.read l path
    if !v.truthy then throw (emptyFile path)
    match v with
    | .map fields => return fields
    | _ => throw (topLevelNotAMap path)

def contentEndings : List String := [".yaml", ".yml"]

/-- The content files of a folder, in order. -/
def contentFiles (e : Entry) : List String :=
  (NameSet.ofList (e.entryNames.filter fun name ↦ contentEndings.any fun s ↦ name.endsWith s)).names

/-- Adds the files of a directory to a catalog, one after the other. -/
def addFiles (l : Loader) (root : Entry) :
    List String → Catalog → List Event × Except ContentError Catalog
  | [], c => ([], .ok c)
  | path :: paths, c =>
    match loadDocument l root path with
    | .error e =>
      if e.severity = .load then
        let (events, r) := addFiles l root paths c
        (.fileSkipped path e.message :: events, r)
      else ([], .error e)
    | .ok document =>
      match c.addDocument l path document with
      | (events, .error e) => (events, .error e)
      | (events, .ok c) =>
        let (events', r) := addFiles l root paths c
        (events ++ events', r)

/-- Loads all content of a directory.  A directory that there is not holds no content. -/
def loadContent (l : Loader) (root : Entry) (directory : String) :
    List Event × Except ContentError Catalog :=
  match root.find directory with
  | .error .tooLong => ([], .error (directoryRefused directory .nameTooLong))
  | .error _ => ([.directoryMissing directory], .ok {})
  | .ok (.file _) => ([], .error (notADirectory directory))
  | .ok folder =>
    let files := contentFiles folder
    if files.isEmpty then ([.noContentFiles directory], .ok {})
    else match addFiles l root (files.map (Path.join directory)) {} with
      | (events, .error e) => (events, .error e)
      | (events, .ok c) =>
        (events ++ [.contentLoaded directory c.items.size c.injuries.size c.modules.size], .ok c)

def loadTemplate (l : Loader) (root : Entry) (path : String) :
    Except ContentError CharacterTemplate := do
  let fields ← loadDocument l root path
  (l.template (.map fields)).mapError (invalidCharacter path)

def loadCharacter (l : Loader) (root : Entry) (path : String)
    (settings : Except SettingsError Settings) (c : Catalog) :
    List Event × Except ContentError Character :=
  match loadTemplate l root path >>= fun t ↦ t.assemble settings c with
  | .error e => ([], .error e)
  | .ok character => ([.characterLoaded character.name path], .ok character)

end CharacterSheet
