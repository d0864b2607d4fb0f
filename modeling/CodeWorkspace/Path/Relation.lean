import CodeWorkspace.Path.Basic

/-! Paths above and below a path, and the parts of a file's name. -/
namespace CodeWorkspace.Path

/-- A leading slash or a leading `.` stands apart from the pieces behind it. -/
def splitHead (bytes : List UInt8) : List UInt8 × List UInt8 :=
  match bytes with
  | [] => ([], [])
  | b :: rest =>
    if b = slash then ([slash], rest)
    else if b = dot ∧ (rest = [] ∨ rest.head? = some slash) then ([dot], rest)
    else ([], b :: rest)

def joinSegments : List (List UInt8) → List UInt8
  | [] => []
  | [s] => s
  | s :: rest => s ++ slash :: joinSegments rest

/-- The path without its last component. Nothing lies above the root or the empty path. -/
def parent (p : Path) : Option Path :=
  let (head, body) := splitHead p.spelling.bytes
  match (segments body).reverse.dropWhile isIdle with
  | _ :: above => some ⟨⟨head ++ joinSegments (above.dropWhile isIdle).reverse⟩⟩
  | [] => if head = [dot] then some ⟨""⟩ else none

/-- The path `q` as seen from the directory `p`. -/
def join (p q : Path) : Path :=
  if q.isAbsolute then q
  else if p.spelling.bytes = [] ∨ p.spelling.bytes.getLast? = some slash then
    ⟨⟨p.spelling.bytes ++ q.spelling.bytes⟩⟩
  else ⟨⟨p.spelling.bytes ++ slash :: q.spelling.bytes⟩⟩

/-- What stands behind the last dot of a name. A name that only begins with a dot has no extension. -/
def extensionOf (name : List UInt8) : Option (List UInt8) :=
  match name.reverse.span (· ≠ dot) with
  | (after, _ :: before) => if before = [] then none else some after.reverse
  | (_, []) => none

def extension (p : Path) : Option OsName :=
  match p.components.getLast? with
  | some (.name bytes) => (extensionOf bytes).map OsName.mk
  | _ => none

end CodeWorkspace.Path
