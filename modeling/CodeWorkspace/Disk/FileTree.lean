import CodeWorkspace.Disk.Basic
import CodeWorkspace.Path.Relation

/-! A disk whose files are known. Every item stands under the names of the directories that lead to it;
nothing is known of what lies outside, above the directory that the tree begins in. -/
namespace CodeWorkspace

inductive FileTree.Item where
  | file (bytes : List UInt8)
  | directory
  deriving DecidableEq, Repr, Inhabited

structure FileTree where
  items : List (List OsName × FileTree.Item) := []
  deriving DecidableEq, Repr, Inhabited

namespace FileTree

/-- A point on the way that a path describes. -/
inductive Location where
  | inside (names : List OsName)
  | outside
  deriving DecidableEq, Repr, Inhabited

/-- The outermost directory has no name. -/
def item? (t : FileTree) (names : List OsName) : Option Item :=
  if names = [] then some .directory else (t.items.find? (·.1 = names)).map (·.2)

def isDirectoryAt (t : FileTree) : Location → Bool
  | .outside => true
  | .inside names => t.item? names = some .directory

/-- Names have at most 255 bytes, paths fewer than 4096. -/
def maxName : Nat := 255

def maxPath : Nat := 4096

def above : Location → Location
  | .outside | .inside [] => .outside
  | .inside names => .inside names.dropLast

/-- Follows one segment of a path. An empty segment, too, must come behind a directory. -/
def step (t : FileTree) (l : Location) (segment : OsName) : Except ReadFailure Location :=
  if !t.isDirectoryAt l then .error .notDirectory
  else if Path.isIdle segment.bytes then .ok l
  else if segment.bytes = [Path.dot, Path.dot] then .ok (above l)
  else if maxName < segment.bytes.length then .error .nameTooLong
  else
    match l with
    | .outside => .error .notFound
    | .inside names =>
      match t.item? (names ++ [segment]) with
      | none => .error .notFound
      | some _ => .ok (.inside (names ++ [segment]))

def walk (t : FileTree) (l : Location) : List OsName → Except ReadFailure Location
  | [] => .ok l
  | segment :: rest =>
    match t.step l segment with
    | .error e => .error e
    | .ok next => t.walk next rest

def segmentsOf (path : Path) : List OsName := (Path.segments path.spelling.bytes).map OsName.mk

/-- Where a path begins. -/
def origin (path : Path) : Location := if path.isAbsolute then .outside else .inside []

/-- Where a path leads. The empty path leads nowhere. -/
def locate (t : FileTree) (path : Path) : Except ReadFailure Location :=
  if path.spelling.bytes = [] then .error .notFound
  else if path.spelling.bytes.contains 0 then .error .nulInName
  else if maxPath ≤ path.spelling.bytes.length then .error .nameTooLong
  else t.walk (origin path) (segmentsOf path)

def textOf (bytes : List UInt8) : Except ReadFailure String :=
  match String.fromUTF8? ⟨bytes.toArray⟩ with
  | some text => .ok text
  | none => .error .notText

def read (t : FileTree) (path : Path) : Except ReadFailure String :=
  match t.locate path with
  | .error e => .error e
  | .ok .outside => .error .isDirectory
  | .ok (.inside names) =>
    match t.item? names with
    | none => .error .notFound
    | some .directory => .error .isDirectory
    | some (.file bytes) => textOf bytes

/-- The names that lead from a directory to an item below it. -/
def below? (directory names : List OsName) : Option (List OsName) :=
  if directory.isPrefixOf names then some (names.drop directory.length) else none

def pathOf (names : List OsName) : Path := ⟨⟨Path.joinSegments (names.map (·.bytes))⟩⟩

def fileBelow? (directory : List OsName) : List OsName × Item → Option Path
  | (_, .directory) => none
  | (names, .file _) => (below? directory names).map pathOf

/-- Whether items are too far below a directory, as it was spelled, to be asked for. -/
def isTooFar (root : Path) (below : List OsName) : Bool :=
  maxPath ≤ (root.join (pathOf below)).spelling.bytes.length

/-- The outermost directories that cannot be read. What is inside of them is not tried. -/
def unreadable? (root : Path) (directory : List OsName) : List OsName × Item → Option Path
  | (_, .file _) => none
  | (names, .directory) =>
    match below? directory names with
    | none | some [] => none
    | some below =>
      let isReached := below.length = 1 || !isTooFar root below.dropLast
      if isTooFar root below && isReached then some (pathOf below) else none

def scanBelow (t : FileTree) (root : Path) (directory : List OsName) : Disk.Scan :=
  match t.items.filterMap (unreadable? root directory) with
  | [] => .files (t.items.filterMap (fileBelow? directory))
  | unreadable => .incomplete ((Path.sort unreadable).map (·, .nameTooLong))

def scan (t : FileTree) (path : Path) : Disk.Scan :=
  match t.locate path with
  | .error _ => .noDirectory
  | .ok .outside => .files []
  | .ok (.inside names) =>
    if t.isDirectoryAt (.inside names) then t.scanBelow path names else .noDirectory

def disk (t : FileTree) : Disk := ⟨t.read, t.scan⟩

/-! Changes. Those that have no place in the tree are left out. -/

def put (t : FileTree) (names : List OsName) (item : Item) : FileTree :=
  ⟨(names, item) :: t.items.filter (·.1 ≠ names)⟩

/-- Follows a path and makes the directories that are missing on it. -/
def makeOn (t : FileTree) (l : Location) : List OsName → FileTree × Location
  | [] => (t, l)
  | segment :: rest =>
    match t.step l segment, l with
    | .ok next, _ => t.makeOn next rest
    | .error .notFound, .inside names =>
      (t.put (names ++ [segment]) .directory).makeOn (.inside (names ++ [segment])) rest
    | .error _, _ => (t, .outside)

def makeDirectory (t : FileTree) (path : Path) : FileTree :=
  (t.makeOn (origin path) (segmentsOf path)).1

/-- Writes a file and makes the directories that lead to it. -/
def write (t : FileTree) (path : Path) (bytes : List UInt8) : FileTree :=
  let segments := segmentsOf path
  match t.makeOn (origin path) segments.dropLast with
  | (t, .outside) => t
  | (t, .inside names) => t.put (names ++ segments.getLast?.toList) (.file bytes)

def remove (t : FileTree) (path : Path) : FileTree :=
  match t.locate path with
  | .ok (.inside names) => ⟨t.items.filter (·.1 ≠ names)⟩
  | _ => t

end FileTree
end CodeWorkspace
