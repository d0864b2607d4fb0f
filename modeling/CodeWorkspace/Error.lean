import CodeWorkspace.Diagnostic
import CodeWorkspace.Text.Duration

/-! Everything that can fail, with the message that users see. -/
namespace CodeWorkspace

inductive WorkspaceError where
  | projectNotFound (name : String)
  | duplicateProject (name : String)
  | danglingReference (project reference : String)
  /-- The projects on the way round, the first one again at the end. -/
  | cyclicReference (cycle : List String)
  | documentNotFound (path : Path)
  | compilation (project : String) (diagnostics : List Diagnostic)
  | workspaceLoad (diagnostics : List Diagnostic)
  | buildTimeout (project : String) (timeout : Duration)
  deriving DecidableEq, Repr, Inhabited

namespace WorkspaceError

def message : WorkspaceError → String
  | projectNotFound name => "Cannot find project " ++ name
  | duplicateProject name => "Duplicate project " ++ name ++ " (project names are case-insensitive)"
  | danglingReference project reference =>
    "Project " ++ project ++ " references unknown project " ++ reference
  | cyclicReference cycle => "Cyclic project reference: " ++ " -> ".intercalate cycle
  | documentNotFound path => "Document not found: " ++ path.text
  | compilation project diagnostics =>
    "Compilation of " ++ project ++ " failed:\n" ++ Diagnostic.renderAll diagnostics
  | workspaceLoad diagnostics => "Failed to load workspace:\n" ++ Diagnostic.renderAll diagnostics
  | buildTimeout project timeout => "Build of " ++ project ++ " timed out after " ++ timeout.render

def diagnostics : WorkspaceError → List Diagnostic
  | compilation _ diagnostics | workspaceLoad diagnostics => diagnostics
  | _ => []

/-- Whether the shape of the project graph is to blame. -/
def isStructural : WorkspaceError → Bool
  | projectNotFound _ | duplicateProject _ | danglingReference .. | cyclicReference _ => true
  | _ => false

end WorkspaceError
end CodeWorkspace
