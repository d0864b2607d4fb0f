import CodeWorkspace.Digest.Xxh3
import CodeWorkspace.Path.Basic

/-! Digests: 128-bit fingerprints of byte buffers. A buffer is put together from fields; texts carry their
length in front, so that the same bytes cut differently are different buffers. -/
namespace CodeWorkspace

structure Digest where
  high : UInt64
  low : UInt64
  deriving DecidableEq, Repr, Inhabited

abbrev Buffer := List UInt8

namespace Digest

def ofBuffer (bytes : Buffer) : Digest :=
  let h := Xxh3.hash bytes.toArray
  ⟨h.high, h.low⟩

def toNat (d : Digest) : Nat := d.high.toNat * UInt64.size + d.low.toNat

def hexDigit (n : Nat) : Char := if n < 10 then Char.ofNat (48 + n) else Char.ofNat (87 + n)

/-- The lowest `count` hexadecimal digits of a number, leading zeros included. -/
def hexDigits : Nat → Nat → List Char
  | 0, _ => []
  | count + 1, n => hexDigits count (n / 16) ++ [hexDigit (n % 16)]

def render (d : Digest) : String := String.ofList (hexDigits 32 d.toNat)

/-- A short form for logs: the first eight digits. -/
def abbreviate (d : Digest) : String := "Digest(" ++ String.ofList ((hexDigits 32 d.toNat).take 8) ++ "..)"

end Digest

namespace Buffer

/-- The lowest `count` bytes of `n`, the lowest first. -/
def littleEndian : Nat → Nat → Buffer
  | 0, _ => []
  | count + 1, n => UInt8.ofNat n :: littleEndian count (n / 256)

/-- Numbers are 64-bit words. -/
def number (n : Nat) : Buffer := littleEndian 8 n

def utf8 (text : String) : Buffer := text.toUTF8.data.toList

def text (s : String) : Buffer := number (utf8 s).length ++ utf8 s

/-- A path counts as it reads, so paths that read alike count as one. -/
def path (p : Path) : Buffer := text p.text

def document (p : Path) (version : Nat) : Buffer := path p ++ number version

def digest (d : Digest) : Buffer := littleEndian 16 d.toNat

end Buffer
end CodeWorkspace
