import CodeWorkspace.Text.Lossy

/-! File paths. A path is the bytes it was given as; they are most often a text in UTF-8, but need not be. Two spellings
name the same place when their components agree, and components, not bytes, decide the order of paths. -/
namespace CodeWorkspace

/-- A name as the operating system keeps it. -/
structure OsName where
  bytes : List UInt8
  deriving DecidableEq, Repr, Inhabited

def OsName.ofText (text : String) : OsName := ⟨text.toList.flatMap String.utf8EncodeChar⟩

instance : Coe String OsName := ⟨.ofText⟩

structure Path where
  spelling : OsName
  deriving DecidableEq, Repr, Inhabited

namespace Path

/-- The spelling for people to read. Where it is no text, different paths may read alike. -/
def text (p : Path) : String := Text.lossy p.spelling.bytes

/-- Whether nothing is lost where the path is read. -/
def isText (p : Path) : Bool := p.spelling = .ofText p.text

def slash : UInt8 := 0x2f

def dot : UInt8 := 0x2e

inductive Component where
  | root
  /-- A leading `.`; further ones say nothing. -/
  | here
  | up
  | name (bytes : List UInt8)
  deriving DecidableEq, Repr

/-- Names come behind all else. -/
def Component.rank : Component → Nat
  | root => 0
  | here => 1
  | up => 2
  | name _ => 3

def Component.label : Component → List UInt8
  | name bytes => bytes
  | _ => []

instance : Ord Component := ⟨compareLex (compareOn Component.rank) (compareOn Component.label)⟩

/-- The pieces between slashes, empty ones included. -/
def segments : List UInt8 → List (List UInt8)
  | [] => [[]]
  | b :: rest =>
    if b = slash then [] :: segments rest
    else match segments rest with
      | [] => [[b]]
      | s :: more => (b :: s) :: more

/-- Pieces that repeat a slash or stay in place. -/
def isIdle (segment : List UInt8) : Bool := segment = [] || segment = [dot]

def Component.ofSegment (segment : List UInt8) : Component :=
  if segment = [dot, dot] then up else name segment

def inner (segs : List (List UInt8)) : List Component :=
  (segs.filter (!isIdle ·)).map Component.ofSegment

def componentsOf (bytes : List UInt8) : List Component :=
  if bytes.head? = some slash then .root :: inner (segments bytes.tail)
  else match segments bytes with
    | [] => []
    | s :: more => if s = [dot] then .here :: inner more else inner (s :: more)

def components (p : Path) : List Component := componentsOf p.spelling.bytes

/-- Whether two spellings name the same place. -/
def same (p q : Path) : Bool := p.components = q.components

theorem same_iff {p q : Path} : p.same q = true ↔ p.components = q.components := by simp [same]

@[simp] theorem same_refl (p : Path) : p.same p = true := by simp [same]

def le (p q : Path) : Bool := (compare p.components q.components).isLE

def isAbsolute (p : Path) : Bool := p.components.head? = some .root

def sort (paths : List Path) : List Path := paths.mergeSort le

/-- Drops every path that names the same place as the one before it. -/
def dedup : List Path → List Path
  | [] => []
  | [p] => [p]
  | p :: q :: rest => if p.same q then dedup (p :: rest) else p :: dedup (q :: rest)

end Path
end CodeWorkspace
