/-! Text from bytes that need not be UTF-8. Every longest run of bytes that begins a character without becoming one, and
every byte that can begin none, reads as one replacement character. -/
namespace CodeWorkspace.Text

def replacement : Char := '\ufffd'

/-- A character of which some bytes are known. -/
structure Begun where
  /-- The bits so far. -/
  value : Nat
  /-- How many bytes come behind the next one. -/
  owed : Nat
  /-- The next byte is none below this one, -/
  low : Nat := 0x80
  /-- and none above this one. -/
  high : Nat := 0xbf
  deriving DecidableEq, Repr

inductive Reading where
  | whole (c : Char)
  | begun (b : Begun)
  deriving DecidableEq, Repr

/-- What a byte begins. Overlong forms, surrogates and what lies above the last character are ruled out by the bounds of
the byte behind it. -/
def beginning? (byte : Nat) : Option Reading :=
  if byte < 0x80 then some (.whole (Char.ofNat byte))
  else if byte < 0xc2 then none
  else if byte < 0xe0 then some (.begun { value := byte - 0xc0, owed := 0 })
  else if byte < 0xf0 then some (.begun {
    value := byte - 0xe0
    owed := 1
    low := if byte = 0xe0 then 0xa0 else 0x80
    high := if byte = 0xed then 0x9f else 0xbf })
  else if byte < 0xf5 then some (.begun {
    value := byte - 0xf0
    owed := 2
    low := if byte = 0xf0 then 0x90 else 0x80
    high := if byte = 0xf4 then 0x8f else 0xbf })
  else none

def Begun.next? (b : Begun) (byte : Nat) : Option Reading :=
  if byte < b.low ∨ b.high < byte then none
  else
    let value := b.value * 64 + (byte - 0x80)
    match b.owed with
    | 0 => some (.whole (Char.ofNat value))
    | owed + 1 => some (.begun { value, owed })

/-- What a character leaves that breaks off. -/
def broken (before : Option Begun) : List Char := if before.isSome then [replacement] else []

/-- Reads on behind a character that has begun, or between characters. A byte that does not go on with the one may begin
another. -/
def readLossy (before : Option Begun) : List UInt8 → List Char
  | [] => broken before
  | byte :: rest =>
    match before.bind (·.next? byte.toNat) with
    | some (.whole c) => c :: readLossy none rest
    | some (.begun b) => readLossy (some b) rest
    | none =>
      broken before ++
        match beginning? byte.toNat with
        | some (.whole c) => c :: readLossy none rest
        | some (.begun b) => readLossy (some b) rest
        | none => replacement :: readLossy none rest

def lossy (bytes : List UInt8) : String := String.ofList (readLossy none bytes)

end CodeWorkspace.Text
