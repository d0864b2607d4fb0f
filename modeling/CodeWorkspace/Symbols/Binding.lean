import CodeWorkspace.Toolchain.Basic
import CodeWorkspace.Tree.Walk

/-! Collecting the named declarations of a project. Types must have names of their own within the project;
namespaces and functions may repeat. A type that hides a name of a referenced project is worth a warning. -/
namespace CodeWorkspace

/-- A named node of a document. -/
structure Occurrence where
  unit : SourceUnit
  name : String
  visit : Visit
  deriving Repr, Inhabited

namespace SourceUnit

def occurrences (u : SourceUnit) : List Occurrence :=
  u.tree.visits.filterMap fun v => v.node.name.map fun name => ⟨u, name, v⟩

end SourceUnit

namespace Occurrence

def symbol (o : Occurrence) : Symbol where
  name := o.name
  qualifiedName := o.visit.qualifiedName
  kind := o.visit.node.kind
  path := o.unit.path
  range := o.visit.node.range

def report (o : Occurrence) (severity : Severity) (code message : String) : Diagnostic where
  severity := severity
  message := message
  code := some code
  path := some o.unit.path
  span := some (o.unit.lines.span o.visit.node.range)

/-- The first referenced project that a type hides a declaration of. -/
def hidden? (references : List Symbols) (o : Occurrence) : Option Symbols :=
  if o.visit.node.kind.isTypeLike then references.find? (·.contains o.visit.qualifiedName) else none

def shadowing (o : Occurrence) (owner : Symbols) : Diagnostic :=
  o.report .warning "W0001"
    s!"`{o.visit.qualifiedName}` hides a declaration from project {owner.project}"

/-- A namespace may be opened again whatever holds its name. -/
def clashes (o : Occurrence) (taken : Symbol) : Bool :=
  (o.visit.node.kind.isTypeLike || taken.kind.isTypeLike) && o.visit.node.kind ≠ .namespaceDecl

def redefining (o : Occurrence) (taken : Symbol) : Diagnostic :=
  o.report .error "Q0100" s!"`{o.visit.qualifiedName}` is already defined in {taken.path.text}"

end Occurrence

namespace Bound

def add (references : List Symbols) (b : Bound) (o : Occurrence) : Bound :=
  let warnings := ((o.hidden? references).map o.shadowing).toList
  match b.symbols.insert o.symbol with
  | .ok symbols => ⟨symbols, b.diagnostics ++ warnings⟩
  | .error taken =>
    ⟨b.symbols, b.diagnostics ++ warnings ++ if o.clashes taken then [o.redefining taken] else []⟩

/-- Binds documents in their order against the symbols of the directly referenced projects. -/
def ofUnits (project : String) (units : List SourceUnit) (references : List Symbols) : Bound :=
  (units.flatMap SourceUnit.occurrences).foldl (add references) ⟨⟨project, []⟩, []⟩

end Bound
end CodeWorkspace
