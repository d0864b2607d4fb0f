import CodeWorkspace.Text.ByteRange
import CodeWorkspace.Tree.Kind

/-! The declarations of one document as a forest. -/
namespace CodeWorkspace

structure Node where
  kind : DeclKind
  name : Option String
  range : ByteRange
  children : List Node
  deriving Repr, Inhabited

/-- A parsed document: its top-level declarations in source order, and its length in bytes. -/
structure Tree where
  items : List Node
  length : Nat
  deriving Repr, Inhabited

namespace Node

mutual

/-- The number of nodes of a subtree, its root included. -/
def size : Node → Nat
  | ⟨_, _, _, children⟩ => sizeAll children + 1

def sizeAll : List Node → Nat
  | [] => 0
  | n :: rest => n.size + sizeAll rest

end

@[simp] theorem sizeAll_nil : sizeAll [] = 0 := by rw [sizeAll]

@[simp] theorem sizeAll_cons (n : Node) (rest : List Node) :
    sizeAll (n :: rest) = n.size + sizeAll rest := by rw [sizeAll]

theorem size_eq (n : Node) : n.size = sizeAll n.children + 1 := by cases n; rw [size]

end Node

def Tree.size (t : Tree) : Nat := Node.sizeAll t.items

end CodeWorkspace
