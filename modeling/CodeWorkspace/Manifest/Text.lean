/-! Texts in JSON quotes. Escapes by number give 16-bit units, which become characters once the whole text
is known; a surrogate without its partner is no character, though the text around it is well-formed. -/
namespace CodeWorkspace.Manifest

inductive Piece where
  | char (c : Char)
  | unit (n : Nat)
  deriving DecidableEq, Repr

def hexValue? (c : Char) : Option Nat :=
  if '0' ≤ c ∧ c ≤ '9' then some (c.toNat - 48)
  else if 'a' ≤ c ∧ c ≤ 'f' then some (c.toNat - 87)
  else if 'A' ≤ c ∧ c ≤ 'F' then some (c.toNat - 55)
  else none

def unit? (a b c d : Char) : Option Nat := do
  let a ← hexValue? a
  let b ← hexValue? b
  let c ← hexValue? c
  let d ← hexValue? d
  return a * 4096 + b * 256 + c * 16 + d

/-- The characters with an escape of their own. -/
def shortEscape? : Char → Option Char
  | '"' => some '"'
  | '\\' => some '\\'
  | '/' => some '/'
  | 'b' => some (Char.ofNat 8)
  | 'f' => some (Char.ofNat 12)
  | 'n' => some '\n'
  | 'r' => some '\r'
  | 't' => some '\t'
  | _ => none

/-- Behind the opening quote: the pieces of the text and what follows its closing quote. Control characters
must be escaped. -/
def pieces : List Char → Option (List Piece × List Char)
  | [] => none
  | '"' :: rest => some ([], rest)
  | '\\' :: 'u' :: a :: b :: c :: d :: rest =>
    match unit? a b c d, pieces rest with
    | some n, some (ps, rest) => some (.unit n :: ps, rest)
    | _, _ => none
  | '\\' :: e :: rest =>
    match shortEscape? e, pieces rest with
    | some c, some (ps, rest) => some (.char c :: ps, rest)
    | _, _ => none
  | c :: rest =>
    if c.toNat < 0x20 then none
    else match pieces rest with
      | some (ps, rest) => some (.char c :: ps, rest)
      | none => none

def isLeading (n : Nat) : Bool := 0xD800 ≤ n && n < 0xDC00

def isTrailing (n : Nat) : Bool := 0xDC00 ≤ n && n < 0xE000

/-- The characters that the pieces stand for. -/
def assemble : List Piece → Option (List Char)
  | [] => some []
  | .char c :: rest => (assemble rest).map (c :: ·)
  | .unit high :: .unit low :: rest =>
    if isLeading high && isTrailing low then
      (assemble rest).map (Char.ofNat (0x10000 + (high - 0xD800) * 0x400 + (low - 0xDC00)) :: ·)
    else if isLeading high || isTrailing high then none
    else (assemble (.unit low :: rest)).map (Char.ofNat high :: ·)
  | .unit n :: rest =>
    if isLeading n || isTrailing n then none else (assemble rest).map (Char.ofNat n :: ·)

def hexDigit (n : Nat) : Char := if n < 10 then Char.ofNat (48 + n) else Char.ofNat (87 + n)

def escapeChar (c : Char) : List Char :=
  if c = '"' then ['\\', '"']
  else if c = '\\' then ['\\', '\\']
  else if c.toNat = 8 then ['\\', 'b']
  else if c = '\t' then ['\\', 't']
  else if c = '\n' then ['\\', 'n']
  else if c.toNat = 12 then ['\\', 'f']
  else if c = '\r' then ['\\', 'r']
  else if c.toNat < 0x20 then ['\\', 'u', '0', '0', hexDigit (c.toNat / 16), hexDigit (c.toNat % 16)]
  else [c]

def printText (s : String) : List Char := '"' :: s.toList.flatMap escapeChar ++ ['"']

theorem length_of_pieces {text rest : List Char} {ps : List Piece} (h : pieces text = some (ps, rest)) :
    rest.length < text.length := by
  fun_induction pieces text generalizing ps rest <;>
    simp_all only [Option.some.injEq, Prod.mk.injEq, List.length_cons, reduceCtorEq, forall_eq',
      and_imp]
  all_goals omega

end CodeWorkspace.Manifest
