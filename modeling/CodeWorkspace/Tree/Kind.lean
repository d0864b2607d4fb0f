/-! What a declaration declares. Kinds outside the usual seven carry their own label. -/
namespace CodeWorkspace

inductive DeclKind where
  | namespaceDecl
  | classDecl
  | structDecl
  | interfaceDecl
  | enumDecl
  | recordDecl
  | functionDecl
  | other (label : String)
  deriving DecidableEq, Repr, Inhabited

namespace DeclKind

/-- The declarations that own members: every type, but neither namespaces nor functions. -/
def isTypeLike : DeclKind → Bool
  | classDecl | structDecl | interfaceDecl | enumDecl | recordDecl => true
  | namespaceDecl | functionDecl | other _ => false

def label : DeclKind → String
  | namespaceDecl => "namespace"
  | classDecl => "class"
  | structDecl => "struct"
  | interfaceDecl => "interface"
  | enumDecl => "enum"
  | recordDecl => "record"
  | functionDecl => "function"
  | other label => label

end DeclKind
end CodeWorkspace
