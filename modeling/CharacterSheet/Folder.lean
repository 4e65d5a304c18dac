import CharacterSheet.Text.Blank
import CharacterSheet.Value

/-!
# Folders

A folder is a snapshot of a tree of files.  Paths are relative to it; what is looked up is a file, a
folder inside it, or nothing.  What lies outside can be part of the snapshot under the names that
lead there; the folders outside are always there, be it with nothing in them.
-/

namespace CharacterSheet

/-! ## Paths -/

namespace Path

/-- Where a path begins that does not begin at the folder. -/
def anchor? (path : List Char) : Option String :=
  match (path.takeWhile (· = '/')).length with
  | 0 => none
  | 2 => some "//"
  | _ => some "/"

/-- The names on a path; empty ones and those that stay where they are do not count. -/
def names (path : String) : List String :=
  (anchor? path.toList).toList ++
    ((Text.splitAt '/' path.toList).map String.ofList).filter fun n ↦ n != "" && n != "."

/-- The number of bytes that a name may have. -/
def nameLimit : Nat := 255

/-- The number of bytes that a path may have. -/
def pathLimit : Nat := 4095

/-- Whether a name leads out of the folder. -/
def leadsOut (name : String) : Bool := ["..", "/", "//"].contains name

/-- A path from names; the empty path is the folder itself. -/
def ofNames (names : List String) : String :=
  match names with
  | [] => "."
  | "/" :: names => "/" ++ "/".intercalate names
  | "//" :: names => "//" ++ "/".intercalate names
  | names => "/".intercalate names

/-- The shortest way to write a path without looking at any folder. -/
def normalize (path : String) : String := ofNames (names path)

/-- The path of a file in a folder. -/
def join (folder name : String) : String := ofNames (names folder ++ [name])

end Path

/-! ## Files -/

/-- What a file holds: bytes, or a document that needs no reading. -/
inductive Contents where
  | bytes (bs : List Nat)
  | document (v : Value)
  deriving Repr

inductive Entry where
  | file (c : Contents)
  | folder (entries : List (String × Entry))
  deriving Repr, Inhabited

namespace Entry

/-- Why there is nothing at a path. -/
inductive Absence where
  | missing
  /-- A file stands where a folder should be. -/
  | throughFile
  /-- A name on the path, or the path itself, is too long. -/
  | tooLong
  /-- The path holds a character that no path can hold. -/
  | noPath
  deriving DecidableEq, Repr

def lookup (name : String) (entries : List (String × Entry)) : Option Entry :=
  List.lookup name entries

/-- Follows names from an entry; `above` are the folders on the way, the innermost first. -/
def follow (above : List Entry) (e : Entry) : List String → Except Absence Entry
  | [] => .ok e
  | name :: names =>
    match e with
    | file _ => .error .throughFile
    | folder entries =>
      if Path.nameLimit < name.utf8ByteSize then .error .tooLong
      else if name = ".." then match above with
        | outer :: above => follow above outer names
        | [] => followInto [] name names entries
      else followInto (e :: above) name names entries
where
  /-- Follows names into an entry of a folder. -/
  followInto (above : List Entry) (name : String) (names : List String)
      (entries : List (String × Entry)) : Except Absence Entry :=
    match lookup name entries with
    | some inner => follow above inner names
    | none => if Path.leadsOut name then follow [] (folder []) names else .error .missing

/-- Looks a path up in a folder. -/
def find (root : Entry) (path : String) : Except Absence Entry :=
  if path.toList.contains '\x00' then .error .noPath
  else if Path.pathLimit < path.utf8ByteSize then .error .tooLong
  else root.follow [] (Path.names path)

mutual

/-- Puts a file or a folder at the end of a chain of names; folders on the way are made. -/
def place (new : Entry) : List String → Entry → Entry
  | [], old => match new, old with
    | folder [], folder entries => folder entries
    | new, _ => new
  | name :: names, folder entries => folder (placeIn new name names entries)
  | name :: names, file _ => folder (placeIn new name names [])

def placeIn (new : Entry) (name : String) (names : List String) :
    List (String × Entry) → List (String × Entry)
  | [] => [(name, place new names (folder []))]
  | e :: es =>
    if e.1 = name then (name, place new names e.2) :: es else e :: placeIn new name names es

end

/-- The names of the entries of a folder. -/
def entryNames : Entry → List String
  | file _ => []
  | folder entries => entries.map Prod.fst

end Entry

end CharacterSheet
