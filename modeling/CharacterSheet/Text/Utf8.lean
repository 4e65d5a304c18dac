import CharacterSheet.Text.Quoted

/-!
# UTF-8

Bytes are decoded strictly.  An error tells the first byte that cannot be read, how many bytes were
taken for one character there, and what is wrong with them.  A file is decoded in chunks, and
positions are counted from the start of the chunk, including what the last chunk left over.
-/

namespace CharacterSheet.Text.Utf8

inductive Fault where
  | invalidStart | invalidContinuation | unexpectedEnd
  deriving DecidableEq, Repr

def Fault.reason : Fault → String
  | invalidStart => "invalid start byte"
  | invalidContinuation => "invalid continuation byte"
  | unexpectedEnd => "unexpected end of data"

structure Error where
  byte : Nat
  position : Nat
  length : Nat
  fault : Fault
  deriving DecidableEq, Repr

def Error.message (e : Error) : String :=
  let what :=
    if e.length ≤ 1 then
      "byte 0x" ++ String.ofList (hexDigits 2 e.byte) ++ " in position " ++ toString e.position
    else
      "bytes in position " ++ toString e.position ++ "-" ++ toString (e.position + e.length - 1)
  "'utf-8' codec can't decode " ++ what ++ ": " ++ e.fault.reason

/-- How many bytes a character takes that starts with a byte, and the range of its second byte. -/
def layout? (b : Nat) : Option (Nat × Nat × Nat) :=
  if b < 0x80 then some (1, 0, 0)
  else if b < 0xc2 then none
  else if b < 0xe0 then some (2, 0x80, 0xbf)
  else if b = 0xe0 then some (3, 0xa0, 0xbf)
  else if b = 0xed then some (3, 0x80, 0x9f)
  else if b < 0xf0 then some (3, 0x80, 0xbf)
  else if b = 0xf0 then some (4, 0x90, 0xbf)
  else if b < 0xf4 then some (4, 0x80, 0xbf)
  else if b = 0xf4 then some (4, 0x80, 0x8f)
  else none

/-- How many of the bytes that follow continue a character, up to a number of them. -/
def continuation : Nat → Nat → Nat → List Nat → Nat
  | 0, _, _, _ => 0
  | _ + 1, _, _, [] => 0
  | n + 1, low, high, b :: bs =>
    if low ≤ b && b ≤ high then 1 + continuation n 0x80 0xbf bs else 0

/-- The code point that some bytes write. -/
def codePoint (first : Nat) (rest : List Nat) : Nat :=
  let lead := match rest.length with
    | 0 => first
    | 1 => first % 0x20
    | 2 => first % 0x10
    | _ => first % 0x8
  rest.foldl (fun n b ↦ n * 0x40 + b % 0x40) lead

/-- Whether all that there is are the first two bytes of a surrogate, which is not looked at before
its third byte is there. -/
def isHalfSurrogate (first : Nat) (rest : List Nat) : Bool :=
  match rest with
  | [b] => first = 0xed && 0xa0 ≤ b && b ≤ 0xbf
  | _ => false

/-- Decodes a chunk of bytes from a position on; the characters read so far come last first.  The
bytes of a character that does not end in the chunk are left over, unless it is the last chunk. -/
def decodeChunk (last : Bool) : Nat → Nat → List Char → List Nat →
    Except Error (List Char × List Nat)
  | 0, _, read, bs => .ok (read.reverse, bs)
  | _ + 1, _, read, [] => .ok (read.reverse, [])
  | fuel + 1, position, read, b :: bs =>
    match layout? b with
    | none => .error ⟨b, position, 1, .invalidStart⟩
    | some (width, low, high) =>
      let n := continuation (width - 1) low high bs
      if n = width - 1 then
        decodeChunk last fuel (position + width) (Char.ofNat (codePoint b (bs.take n)) :: read)
          (bs.drop n)
      else if !last && isHalfSurrogate b bs then .ok (read.reverse, b :: bs)
      else if n < bs.length then .error ⟨b, position, n + 1, .invalidContinuation⟩
      else if last then .error ⟨b, position, n + 1, .unexpectedEnd⟩
      else .ok (read.reverse, b :: bs)

def decode (bytes : List Nat) : Except Error (List Char) :=
  (decodeChunk true (bytes.length + 1) 0 [] bytes).map fun r ↦ holdAll r.1

/-- Every line break is read as a line feed. -/
def unifyBreaks : List Char → List Char
  | [] => []
  | '\r' :: '\n' :: cs => '\n' :: unifyBreaks cs
  | '\r' :: cs => '\n' :: unifyBreaks cs
  | c :: cs => c :: unifyBreaks cs

/-! ## Reading in blocks

A file is read in blocks of characters, which take as many chunks of bytes as they need.
-/

def blockSize : Nat := 4096

def chunkSize : Nat := 8192

/-- The characters in the blocks of a file that can be read, and the error after them. -/
structure Stream where
  chars : List Char
  error : Option Error := none
  deriving Repr

/-- What has been read of a file and what there is still to be read. -/
structure Feed where
  bytes : List Nat
  /-- The bytes of a character that has not come to its end. -/
  left : List Nat := []
  /-- A carriage return at the end of a chunk, which may be part of a line break. -/
  held : List Char := []
  /-- Characters that belong to no block yet. -/
  ready : List Char := []
  /-- How many bytes and characters the last chunk had. -/
  ratio : Nat × Nat := (0, 1)
  atEnd : Bool := false

namespace Feed

/-- How many bytes to decode for the characters that a block still lacks, going by the last
chunk. -/
def wanted (f : Feed) : Nat :=
  max chunkSize (f.ratio.1 * (blockSize - f.ready.length) / max 1 f.ratio.2)

def step (f : Feed) : Except Error Feed := do
  let chunk := f.bytes.take f.wanted
  let last := chunk.isEmpty
  let bytes := f.left ++ chunk
  let (cs, left) ← decodeChunk last (bytes.length + 1) 0 [] bytes
  let cs := f.held ++ cs
  let held := if !last && cs.getLast? = some '\r' then ['\r'] else []
  let cs := unifyBreaks (cs.take (cs.length - held.length))
  return {
    bytes := f.bytes.drop chunk.length
    left, held
    ready := f.ready ++ cs
    ratio := (chunk.length, cs.length)
    atEnd := last }

/-- Reads blocks to the end of a file, or to the block before one that cannot be read. -/
def run : Nat → Feed → Stream
  | 0, f => { chars := f.ready }
  | fuel + 1, f =>
    if blockSize ≤ f.ready.length then
      let rest := run fuel { f with ready := f.ready.drop blockSize }
      { rest with chars := f.ready.take blockSize ++ rest.chars }
    else if f.atEnd then { chars := f.ready }
    else match f.step with
      | .ok f => run fuel f
      | .error e => { chars := [], error := some e }

end Feed

def read (bytes : List Nat) : Stream := Feed.run (2 * bytes.length + 3) { bytes }

end CharacterSheet.Text.Utf8
