import CodeWorkspace.Proofs.Tree.Preorder
import CodeWorkspace.Query.Declarations

/-! A query walked to its end. Stepping through projects, documents and trees with a cursor comes to all that the
query lists, in the order of its list. -/
namespace CodeWorkspace.Query

theorem Cursor.toList_eq_left (c : Cursor) : c.toList = c.left := by
  fun_induction Cursor.toList c with
  | case1 c h => rw [left_eq, h]
  | case2 c found c' h ih => rw [left_of_next? h, ih]

theorem toList_cursor (q : Query) : q.cursor.toList = q.declarations := by
  have walked (project : String) (d : CompiledDocument) :
      left (pick q.filter project d) (.ofTree d.tree) = inDocument q.filter project d := by
    rw [left, Walk.toList_ofTree, inDocument]
  simp [Cursor.toList_eq_left, Cursor.left, cursor, leftInProjects, leftInDocuments, declarations, walked]

end CodeWorkspace.Query
