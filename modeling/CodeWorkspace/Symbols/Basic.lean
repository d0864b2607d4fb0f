import CodeWorkspace.Path.Basic
import CodeWorkspace.Text.ByteRange
import CodeWorkspace.Tree.Kind

/-! The declarations of one project by qualified name. The first declaration of a name keeps it. -/
namespace CodeWorkspace

structure Symbol where
  name : String
  qualifiedName : String
  kind : DeclKind
  path : Path
  range : ByteRange
  deriving DecidableEq, Repr, Inhabited

/-- Symbols in the order of their declaration, no two with one qualified name. -/
structure Symbols where
  project : String
  entries : List Symbol := []
  deriving DecidableEq, Repr, Inhabited

namespace Symbols

def get? (s : Symbols) (qualifiedName : String) : Option Symbol :=
  s.entries.find? (·.qualifiedName = qualifiedName)

def contains (s : Symbols) (qualifiedName : String) : Bool := (s.get? qualifiedName).isSome

/-- All symbols with a simple name. -/
def lookup (s : Symbols) (name : String) : List Symbol := s.entries.filter (·.name = name)

/-- The table with one more symbol, or the symbol that holds its name already. -/
def insert (s : Symbols) (symbol : Symbol) : Except Symbol Symbols :=
  match s.get? symbol.qualifiedName with
  | some taken => .error taken
  | none => .ok { s with entries := s.entries ++ [symbol] }

end Symbols
end CodeWorkspace
