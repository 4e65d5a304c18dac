import CharacterSheet.Yaml.ScalarText
import CharacterSheet.Yaml.Source

/-!
# Tokens of YAML texts

A text is cut into tokens.  Indentation opens and closes block collections, so there are tokens for
what is not written.  A key of a mapping is noticed only at the colon after it: the token that
announces the key is put in front of it afterwards.  So where a text goes wrong, the tokens from
the first one on that may still become a key are not known yet.
-/

namespace CharacterSheet.Yaml

inductive Token where
  | version (major : Nat)
  | tagHandle (handle uri : String)
  | otherDirective
  | documentStart | documentEnd
  | sequenceStart | mappingStart | blockEnd
  | flowSequenceStart | flowSequenceEnd | flowMappingStart | flowMappingEnd
  | blockEntry | flowEntry | key | value
  | alias (name : String)
  | anchor (name : String)
  | tag (handle : Option String) (suffix : String)
  | scalar (text : String) (plain : Bool)
  deriving DecidableEq, Repr

/-! ## Names, tags and directives -/

def isUriChar (c : Char) : Bool :=
  isNameChar c || "-;/?:@&=+$,_.!~*'()[]%".toList.contains c

def escapedBytes : Nat → Cursor → Option (List Nat × Cursor)
  | 0, c => some ([], c)
  | fuel + 1, c =>
    match c.rest with
    | '%' :: more => do
      let b ← hexNumber? (more.take 2)
      if more.length < 2 then none
      else
        let (bs, c) ← escapedBytes fuel (c.skip 3)
        some (b :: bs, c)
    | _ => some ([], c)

/-- A part of a URI, with its percent escapes resolved. -/
def uriFrom : Nat → List Char → Cursor → Option (List Char × Cursor)
  | 0, read, c => some (read, c)
  | fuel + 1, read, c =>
    match c.peek? with
    | none => some (read, c)
    | some ch =>
      if ch = '%' then do
        let (bytes, c) ← escapedBytes fuel c
        let cs ← (Text.Utf8.decode bytes).toOption
        uriFrom fuel (read ++ cs) c
      else if isUriChar ch then uriFrom fuel (read ++ [ch]) c.next
      else some (read, c)

def uri (c : Cursor) : Except Fault (String × Cursor) :=
  match uriFrom (c.rest.length + 1) [] c with
  | some (cs, c') =>
    if c'.index = c.index then c.refuse else .ok (String.ofList cs, c')
  | none => c.refuse

/-- A handle of tags: exclamation marks around a name that may be empty, or a single one. -/
def tagHandle (c : Cursor) : Except Fault (String × Cursor) :=
  if c.peek? ≠ some '!' then c.refuse
  else if c.peek? 1 = some ' ' then .ok ("!", c.next)
  else
    let (name, c') := c.next.span isNameChar
    if c'.peek? = some '!' then .ok (String.ofList ('!' :: (name ++ ['!'])), c'.next)
    else c'.refuse

/-- Whether an exclamation mark follows before a blank. -/
def hasHandle (c : Cursor) : Bool :=
  (c.rest.takeWhile fun ch ↦ !(ch = ' ' || isBreak ch)).contains '!'

/-- A tag; the cursor is at its exclamation mark. -/
def tagToken (c : Cursor) : Except Fault (Token × Cursor) := do
  let (token, c) ←
    if c.peek? 1 = some '<' then do
      let (suffix, c) ← uri (c.skip 2)
      if c.peek? = some '>' then pure (Token.tag none suffix, c.next) else c.refuse
    else if c.gapAt 1 then pure (Token.tag none "!", c.next)
    else do
      let (handle, c) ← if hasHandle c.next then tagHandle c else pure ("!", c.next)
      let (suffix, c) ← uri c
      pure (Token.tag (some handle) suffix, c)
  if c.spaceAt 0 then return (token, c) else c.refuse

/-- The name of an anchor or an alias; the cursor is at the indicator. -/
def anchorName (c : Cursor) : Except Fault (String × Cursor) :=
  let (name, c) := c.next.span isNameChar
  let ended := c.endsAt 0 fun ch ↦ isBlank ch || isBreak ch || "?:,]\x7d%@\x60".toList.contains ch
  if name.isEmpty || !ended then c.refuse else .ok (String.ofList name, c)

def versionNumber (c : Cursor) : Except Fault (Nat × Cursor) :=
  let (digits, c) := c.span Integer.isDigit
  if digits.isEmpty then c.refuse
  else match Integer.convert false digits with
    | .ok n => .ok (n.toNat, c)
    | .error e => .error (.crash (.scalar (.integer e)))

/-- The inside of a directive after its name. -/
def directiveValue (name : String) (c : Cursor) : Except Fault (Token × Cursor) := do
  let skipSpaces (c : Cursor) := c.dropWhile (· = ' ')
  match name with
  | "YAML" =>
    let (major, c) ← versionNumber (skipSpaces c)
    if c.peek? ≠ some '.' then c.refuse
    let (_, c) ← versionNumber c.next
    if c.spaceAt 0 then return (.version major, c) else c.refuse
  | "TAG" =>
    let (handle, c) ← tagHandle (skipSpaces c)
    if c.peek? ≠ some ' ' then c.refuse
    let (suffix, c) ← uri (skipSpaces c)
    if c.spaceAt 0 then return (.tagHandle handle suffix, c) else c.refuse
  | _ => return (.otherDirective, c.dropWhile fun ch ↦ !isBreak ch)

/-- A directive; the cursor is at its percent sign. -/
def directive (c : Cursor) : Except Fault (Token × Cursor) := do
  let (name, c) := c.next.span isNameChar
  if name.isEmpty || !c.spaceAt 0 then c.refuse
  let (token, c) ← directiveValue (String.ofList name) c
  match c.endLine? with
  | some c => return (token, c)
  | none => c.refuse

/-! ## Cutting a text -/

/-- A place where a key of a mapping may begin. -/
structure KeyMark where
  tokens : Nat
  /-- Nothing but a key can stand there. -/
  required : Bool
  index : Nat
  line : Nat
  column : Nat
  deriving Repr

structure Scan where
  cursor : Cursor
  /-- The tokens so far, the last one first. -/
  tokens : List Token := []
  count : Nat := 0
  /-- The place of the current key at each depth of brackets, the innermost first. -/
  keys : List (Option KeyMark) := [none]
  /-- The columns of the open block collections, the innermost first. -/
  indents : List Nat := []
  keyAllowed : Bool := true
  deriving Repr

namespace Scan

def emit (token : Token) (s : Scan) : Scan :=
  { s with tokens := token :: s.tokens, count := s.count + 1 }

def moveTo (c : Cursor) (s : Scan) : Scan := { s with cursor := c }

def allow (allowed : Bool) (s : Scan) : Scan := { s with keyAllowed := allowed }

def emitChar (token : Token) (s : Scan) : Scan := (s.emit token).moveTo s.cursor.next

def inFlow (s : Scan) : Bool := 1 < s.keys.length

/-- The column at which lines inside the innermost block collection are indented. -/
def indent (s : Scan) : Nat :=
  match s.indents with
  | [] => 0
  | column :: _ => column + 1

/-- A key ends on its line, and it is not long. -/
def isStale (s : Scan) (k : KeyMark) : Bool :=
  k.line ≠ s.cursor.line || 1024 < s.cursor.index - k.index

/-- Gives up keys that cannot be completed any more. -/
def dropStale (s : Scan) : Except Fault Scan :=
  if s.keys.any fun k ↦ k.any fun k ↦ s.isStale k && k.required then .error .notADocument
  else .ok { s with keys := s.keys.map fun k ↦ k.filter fun k ↦ !s.isStale k }

def dropKey (s : Scan) : Except Fault Scan :=
  match s.keys with
  | some k :: rest =>
    if k.required then .error .notADocument else .ok { s with keys := none :: rest }
  | _ => .ok s

/-- Marks the place of the cursor as one where a key may begin. -/
def saveKey (s : Scan) : Except Fault Scan :=
  if s.keyAllowed then do
    let s ← s.dropKey
    let c := s.cursor
    let required := !s.inFlow && s.indents.head? = some c.column
    return { s with
      keys := some ⟨s.count, required, c.index, c.line, c.column⟩ :: s.keys.drop 1 }
  else .ok s

def closeTo (column : Nat) (s : Scan) : Scan :=
  if s.inFlow then s
  else
    let closed := (s.indents.takeWhile (column < ·)).length
    { s with
      indents := s.indents.drop closed
      tokens := List.replicate closed .blockEnd ++ s.tokens
      count := s.count + closed }

def closeAll (s : Scan) : Scan :=
  if s.inFlow then s
  else
    { s with
      indents := []
      tokens := List.replicate s.indents.length .blockEnd ++ s.tokens
      count := s.count + s.indents.length }

def opensAt (column : Nat) (s : Scan) : Bool := s.indents.head?.all (· < column)

/-- Opens a block collection at a column, unless one is open there. -/
def openAt (column : Nat) (token : Token) (s : Scan) : Scan :=
  if s.opensAt column then { s.emit token with indents := column :: s.indents } else s

def insertAt (number : Nat) (new : List Token) (s : Scan) : Scan :=
  let after := s.count - number
  { s with
    tokens := s.tokens.take after ++ new.reverse ++ s.tokens.drop after
    count := s.count + new.length }

def toNext : Nat → Scan → Scan
  | 0, s => s
  | fuel + 1, s =>
    let c := (s.cursor.dropWhile (· = ' ')).skipComment
    match c.lineBreak? with
    | none => s.moveTo c
    | some (_, c) =>
      toNext fuel { s with cursor := c, keyAllowed := s.keyAllowed || !s.inFlow }

/-- A marker or a directive closes everything that is open. -/
def betweenDocuments (s : Scan) : Except Fault Scan := do
  return (← s.closeAll.dropKey).allow false

def openBracket (token : Token) (s : Scan) : Except Fault Scan := do
  let s ← s.saveKey
  return { s.emitChar token with keys := none :: s.keys, keyAllowed := true }

def closeBracket (token : Token) (s : Scan) : Except Fault Scan := do
  let s ← s.dropKey
  if s.inFlow then return { s.emitChar token with keys := s.keys.drop 1, keyAllowed := false }
  else s.cursor.refuse

def entryInFlow (s : Scan) : Except Fault Scan := do
  return ((← s.dropKey).allow true).emitChar .flowEntry

def entryInBlock (s : Scan) : Except Fault Scan := do
  if !s.inFlow && !s.keyAllowed then s.cursor.refuse
  let s := if s.inFlow then s else s.openAt s.cursor.column .sequenceStart
  return ((← s.dropKey).allow true).emitChar .blockEntry

def explicitKey (s : Scan) : Except Fault Scan := do
  if !s.inFlow && !s.keyAllowed then s.cursor.refuse
  let s := if s.inFlow then s else s.openAt s.cursor.column .mappingStart
  return ((← s.dropKey).allow !s.inFlow).emitChar .key

/-- A colon: what began at the place of the current key, if there is one, was a key. -/
def colon (s : Scan) : Except Fault Scan := do
  match s.keys with
  | some k :: rest =>
    let s := { s with keys := none :: rest, keyAllowed := false }
    let s :=
      if !s.inFlow && s.opensAt k.column then
        { s.insertAt k.tokens [.mappingStart, .key] with indents := k.column :: s.indents }
      else s.insertAt k.tokens [.key]
    return s.emitChar .value
  | _ =>
    if !s.inFlow && !s.keyAllowed then s.cursor.refuse
    let s := if s.inFlow then s else s.openAt s.cursor.column .mappingStart
    return ((← s.dropKey).allow !s.inFlow).emitChar .value

/-- Reads a token that may be a key or the beginning of one. -/
def keyLike (read : Cursor → Except Fault (Token × Cursor)) (s : Scan) : Except Fault Scan := do
  let s ← s.saveKey
  let (token, c) ← read s.cursor
  return ((s.emit token).moveTo c).allow false

def quoted (quote : Char) (c : Cursor) : Except Fault (Token × Cursor) := do
  let (cs, c) ← quotedScalar quote c
  return (.scalar (String.ofList cs) false, c)

def plain (s : Scan) : Except Fault Scan := do
  let s ← s.saveKey
  let (cs, gap) ← plainScalar s.inFlow s.indent s.cursor
  let text := String.ofList (Text.holdAll cs)
  return ((s.emit (.scalar text true)).moveTo gap.cursor).allow gap.crossed

def block (folded : Bool) (s : Scan) : Except Fault Scan := do
  let s ← (s.allow true).dropKey
  let (cs, c) ← blockScalar folded (max 1 s.indent) s.cursor.next
  return (s.emit (.scalar (String.ofList (Text.holdAll cs)) false)).moveTo c

def named (token : String → Token) (c : Cursor) : Except Fault (Token × Cursor) := do
  let (name, c) ← anchorName c
  return (token name, c)

def plainStarts (s : Scan) (ch : Char) : Bool :=
  if ch = '-' then !s.cursor.gapAt 1
  else if ch = '?' || ch = ':' then !s.inFlow && !s.cursor.gapAt 1
  else !(isBlank ch || isBreak ch || ",[]\x7b\x7d#&*!|>'\"%@\x60".toList.contains ch)

def token (ch : Char) (s : Scan) : Except Fault Scan :=
  let c := s.cursor
  let lineStart := c.column = 0
  let indicates := s.inFlow || c.gapAt 1
  if ch = '%' && lineStart then do
    let s ← s.betweenDocuments
    let (t, c) ← directive s.cursor
    return (s.emit t).moveTo c
  else if lineStart && c.atStartMarker then do
    let s ← s.betweenDocuments
    return (s.emit .documentStart).moveTo (c.skip 3)
  else if lineStart && c.atEndMarker then do
    let s ← s.betweenDocuments
    return (s.emit .documentEnd).moveTo (c.skip 3)
  else if ch = '[' then s.openBracket .flowSequenceStart
  else if ch = '\x7b' then s.openBracket .flowMappingStart
  else if ch = ']' then s.closeBracket .flowSequenceEnd
  else if ch = '\x7d' then s.closeBracket .flowMappingEnd
  else if ch = ',' then s.entryInFlow
  else if ch = '-' && c.gapAt 1 then s.entryInBlock
  else if ch = '?' && indicates then s.explicitKey
  else if ch = ':' && indicates then s.colon
  else if ch = '*' then s.keyLike (named .alias)
  else if ch = '&' then s.keyLike (named .anchor)
  else if ch = '!' then s.keyLike tagToken
  else if ch = '|' && !s.inFlow then s.block false
  else if ch = '>' && !s.inFlow then s.block true
  else if ch = '\'' || ch = '"' then s.keyLike (quoted ch)
  else if s.plainStarts ch then s.plain
  else .error .notADocument

def step (s : Scan) : Except Fault (Option Scan) := do
  let s := s.toNext (s.cursor.rest.length + 1)
  s.cursor.check
  let s ← s.dropStale
  match s.cursor.peek? with
  | none => return none
  | some ch =>
    let s ← (s.closeTo s.cursor.column).token ch
    s.cursor.check
    return some s

/-- How many tokens are known for good: those before the first that may still be a key. -/
def known (s : Scan) : Nat :=
  ((s.keys.filterMap fun k ↦ k.filter fun k ↦ !s.isStale k).map KeyMark.tokens).foldl min s.count

end Scan

/-- The tokens of a text, as far as they are known, and the fault behind them. -/
structure Tokens where
  known : List Token
  fault : Option Fault := none
  deriving Repr

namespace Scan

def stop (s : Scan) (f : Fault) : Tokens := ⟨s.tokens.reverse.take s.known, some f⟩

def finish (s : Scan) : Tokens :=
  match s.closeAll.dropKey with
  | .ok s => ⟨s.tokens.reverse, none⟩
  | .error f => s.stop f

/-- Reads tokens to the end of the text, or to its first fault. -/
def run : Nat → Scan → Tokens
  | 0, s => s.stop .notADocument
  | fuel + 1, s =>
    match s.step with
    | .ok (some s) => run fuel s
    | .ok none => s.finish
    | .error f => s.stop f

end Scan

/-- The tokens of a text; a byte order mark at the start is no part of it. -/
def tokens (text : Source) : Tokens :=
  let start : Cursor := { rest := text.chars, fault := text.fault }
  let start := if start.peek? = some '\ufeff' then start.next else start
  Scan.run (text.chars.length + 1) { cursor := start }

end CharacterSheet.Yaml
