import CodeWorkspace.Diagnostic
import CodeWorkspace.Symbols.Basic
import CodeWorkspace.Text.LineTable
import CodeWorkspace.Tree.Node

/-! What a compiler offers to a workspace: to parse one document, and to bind the documents of one project
against the symbols of the projects it references. -/
namespace CodeWorkspace

/-- What parsing a document gives. -/
structure Parsed where
  tree : Tree
  diagnostics : List Diagnostic
  deriving Repr, Inhabited

/-- A parsed document as it is bound. -/
structure SourceUnit where
  path : Path
  tree : Tree
  lines : LineTable
  deriving Repr, Inhabited

/-- What binding a project gives. -/
structure Bound where
  symbols : Symbols
  diagnostics : List Diagnostic
  deriving Repr, Inhabited

/-- Both operations are functions of what they are given, so a build can be repeated. They fail only where
the compiler breaks down, and say how. -/
structure Toolchain where
  name : String
  parse : Path → String → Except String Parsed
  /-- The project's name, its documents in order, and the symbols of its direct references in order. -/
  bind : String → List SourceUnit → List Symbols → Except String Bound

/-- Whether the compiler survives whatever it is given. -/
structure Toolchain.IsRobust (tc : Toolchain) : Prop where
  parse : ∀ path text, ∃ parsed, tc.parse path text = .ok parsed
  bind : ∀ project units references, ∃ bound, tc.bind project units references = .ok bound

end CodeWorkspace
