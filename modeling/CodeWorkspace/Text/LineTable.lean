import CodeWorkspace.Text.ByteRange
import CodeWorkspace.Text.Position

/-! Where the lines of a text begin. A table turns byte offsets into positions; an offset past the
end of the text stands for its end. Offsets are words, so all that lies behind the last word is the same to a table. -/
namespace CodeWorkspace

structure LineTable where
  /-- Offsets just behind each newline, in order: the starts of all lines but the first. -/
  breaks : List Nat
  length : Nat
  deriving DecidableEq, Repr, Inhabited

namespace LineTable

/-- The offsets behind the newlines of a text that begins at `offset`. -/
def breaksFrom (offset : Nat) : List Char → List Nat
  | [] => []
  | c :: rest =>
    let next := offset + c.utf8Size
    if c = '\n' then next :: breaksFrom next rest else breaksFrom next rest

def ofChars (text : List Char) : LineTable :=
  ⟨(breaksFrom 0 text).map saturateOffset, saturateOffset (byteLength text)⟩

def ofText (text : String) : LineTable := ofChars text.toList

def lineCount (t : LineTable) : Nat := t.breaks.length + 1

/-- Walks the lines until the one that holds `offset`, given that it is not before `start`. -/
def locate (offset : Nat) (line start : Nat) : List Nat → Position
  | [] => ⟨line, offset - start⟩
  | b :: rest => if b ≤ offset then locate offset (line + 1) b rest else ⟨line, offset - start⟩

def position (t : LineTable) (offset : Nat) : Position :=
  locate (min offset t.length) 0 0 t.breaks

def span (t : LineTable) (r : ByteRange) : Span := ⟨t.position r.start, t.position r.stop⟩

end LineTable
end CodeWorkspace
