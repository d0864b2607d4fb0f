import CodeWorkspace.Text.Quoted
import CodeWorkspace.Tree.Walk

/-! Choosing nodes by what a walk knows of them. -/
namespace CodeWorkspace

inductive Filter where
  | all
  | typeLike
  /-- Nodes outside all types. Namespaces do not count as nesting. -/
  | topLevel
  | kind (kind : DeclKind)
  /-- Nodes with this simple name. -/
  | named (name : String)
  | custom (predicate : Visit → Bool)
  | both (f g : Filter)
  | either (f g : Filter)
  deriving Inhabited

namespace Filter

def accepts (v : Visit) : Filter → Bool
  | all => true
  | typeLike => v.node.kind.isTypeLike
  | topLevel => !v.inType
  | kind k => v.node.kind = k
  | named name => v.node.name = some name
  | custom predicate => predicate v
  | both f g => f.accepts v && g.accepts v
  | either f g => f.accepts v || g.accepts v

def label : Filter → String
  | all => "all"
  | typeLike => "class_like"
  | topLevel => "top_level"
  | kind k => "kind(" ++ k.label ++ ")"
  | named name => "named(" ++ name ++ ")"
  | custom _ => "custom"
  | both f g => "(" ++ f.label ++ " and " ++ g.label ++ ")"
  | either f g => "(" ++ f.label ++ " or " ++ g.label ++ ")"

/-- The form that logs show. -/
def render (f : Filter) : String := "DeclarationFilter(" ++ Text.quote f.label ++ ")"

end Filter
end CodeWorkspace
