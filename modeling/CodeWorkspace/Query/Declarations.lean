import CodeWorkspace.Query.Filter
import CodeWorkspace.Snapshot

/-! Queries for the declarations of a snapshot. `Query.declarations` says what a query yields; a
`Query.Cursor` yields the same one by one, and stands between two answers somewhere in the walk of some
document of some project. -/
namespace CodeWorkspace

/-- A named node and where it was found. -/
structure Declaration where
  kind : DeclKind
  name : String
  qualifiedName : String
  range : ByteRange
  span : Span
  path : Path
  project : String
  depth : Nat
  deriving DecidableEq, Repr, Inhabited

inductive Scope where
  /-- The documents of the project alone. -/
  | project
  /-- Those of all projects that it leads to as well. -/
  | transitive
  deriving DecidableEq, Repr, Inhabited

structure Query where
  snapshot : Snapshot
  filter : Filter := .all
  scope : Scope := .project
  deriving Inhabited

namespace Query

/-- What a query says of one visit. Unnamed nodes are never declarations. -/
def pick (filter : Filter) (project : String) (d : CompiledDocument) (v : Visit) : Option Declaration :=
  match v.node.name with
  | none => none
  | some name =>
    if filter.accepts v then
      some {
        kind := v.node.kind
        name := name
        qualifiedName := v.qualifiedName
        range := v.node.range
        span := d.lines.span v.node.range
        path := d.path
        project := project
        depth := v.depth }
    else none

/-- The snapshots a query covers, in the order of its walk. -/
def projects (q : Query) : List Snapshot :=
  match q.scope with
  | .project => [q.snapshot]
  | .transitive => q.snapshot.transitive

def inDocument (filter : Filter) (project : String) (d : CompiledDocument) : List Declaration :=
  d.tree.visits.filterMap (pick filter project d)

/-- Everything a query yields: projects behind their references, documents in project order, nodes in
pre-order. -/
def declarations (q : Query) : List Declaration :=
  q.projects.flatMap fun s => s.documents.flatMap (inDocument q.filter s.project)

/-- A place within a project. -/
structure Place where
  project : String
  document : CompiledDocument
  /-- What is left of the document. -/
  walk : Walk
  /-- The documents behind it. -/
  documents : List CompiledDocument
  deriving Repr, Inhabited

structure Cursor where
  filter : Filter
  place : Option Place
  /-- The projects still to be entered. -/
  projects : List Snapshot
  deriving Inhabited

/-- A fresh walk. A query can be walked any number of times. -/
def cursor (q : Query) : Cursor := ⟨q.filter, none, q.projects⟩

/-- Goes on with a walk up to the next visit that is picked. -/
def search (choose : Visit → Option Declaration) (w : Walk) : Option (Declaration × Walk) :=
  match _h : w.next? with
  | none => none
  | some (v, w') =>
    match choose v with
    | some found => some (found, w')
    | none => search choose w'
termination_by w.size
decreasing_by exact Walk.size_of_next? _h

namespace Place

/-- Goes through documents up to the first declaration in one of them. -/
def enter (filter : Filter) (project : String) : List CompiledDocument → Option (Declaration × Place)
  | [] => none
  | d :: rest =>
    match search (pick filter project d) (.ofTree d.tree) with
    | some (found, walk) => some (found, ⟨project, d, walk, rest⟩)
    | none => enter filter project rest

def next? (filter : Filter) (p : Place) : Option (Declaration × Place) :=
  match search (pick filter p.project p.document) p.walk with
  | some (found, walk) => some (found, { p with walk := walk })
  | none => enter filter p.project p.documents

end Place

namespace Cursor

/-- Goes through projects up to the first declaration in one of them. -/
def enter (filter : Filter) : List Snapshot → Option (Declaration × Cursor)
  | [] => none
  | s :: rest =>
    match Place.enter filter s.project s.documents with
    | some (found, place) => some (found, ⟨filter, some place, rest⟩)
    | none => enter filter rest

/-- The next declaration and the cursor behind it. -/
def next? (c : Cursor) : Option (Declaration × Cursor) :=
  match c.place.bind (Place.next? c.filter) with
  | some (found, place) => some (found, { c with place := some place })
  | none => enter c.filter c.projects

end Cursor

/-! What is left in front of a cursor. Each answer is the first of it. -/

/-- The declarations in the rest of a walk. -/
def left (choose : Visit → Option Declaration) (w : Walk) : List Declaration := w.toList.filterMap choose

def leftInDocuments (filter : Filter) (project : String) (ds : List CompiledDocument) :
    List Declaration :=
  ds.flatMap fun d => left (pick filter project d) (.ofTree d.tree)

def Place.left (filter : Filter) (p : Place) : List Declaration :=
  Query.left (pick filter p.project p.document) p.walk ++ leftInDocuments filter p.project p.documents

def leftInProjects (filter : Filter) (ss : List Snapshot) : List Declaration :=
  ss.flatMap fun s => leftInDocuments filter s.project s.documents

def Cursor.left (c : Cursor) : List Declaration :=
  (match c.place with
    | none => []
    | some p => p.left c.filter) ++ leftInProjects c.filter c.projects

theorem left_eq (choose : Visit → Option Declaration) (w : Walk) :
    left choose w =
      match search choose w with
      | none => []
      | some (found, w') => found :: left choose w' := by
  fun_induction search choose w with
  | case1 w h => simp [left, Walk.toList_of_next?_none h]
  | case2 w v w' h found hc => simp [left, Walk.toList_of_next? h, hc]
  | case3 w v w' h hc ih =>
    rw [← ih]
    simp [left, Walk.toList_of_next? h, hc]

theorem leftInDocuments_eq (filter : Filter) (project : String) (ds : List CompiledDocument) :
    leftInDocuments filter project ds =
      match Place.enter filter project ds with
      | none => []
      | some (found, p) => found :: p.left filter := by
  induction ds with
  | nil => rfl
  | cons d rest ih =>
    have split : leftInDocuments filter project (d :: rest) =
        left (pick filter project d) (.ofTree d.tree) ++ leftInDocuments filter project rest := rfl
    rw [split, left_eq, Place.enter]
    cases search (pick filter project d) (.ofTree d.tree) with
    | none => simpa using ih
    | some r => rfl

theorem Place.left_eq (filter : Filter) (p : Place) :
    p.left filter =
      match p.next? filter with
      | none => []
      | some (found, p') => found :: p'.left filter := by
  rw [Place.left, Query.left_eq, Place.next?]
  cases search (pick filter p.project p.document) p.walk with
  | none => simpa using leftInDocuments_eq filter p.project p.documents
  | some r => rfl

theorem leftInProjects_eq (filter : Filter) (ss : List Snapshot) :
    leftInProjects filter ss =
      match Cursor.enter filter ss with
      | none => []
      | some (found, c) => found :: c.left := by
  induction ss with
  | nil => rfl
  | cons s rest ih =>
    have split : leftInProjects filter (s :: rest) =
        leftInDocuments filter s.project s.documents ++ leftInProjects filter rest := rfl
    rw [split, leftInDocuments_eq, Cursor.enter]
    cases Place.enter filter s.project s.documents with
    | none => simpa using ih
    | some r => rfl

namespace Cursor

theorem left_eq (c : Cursor) :
    c.left =
      match c.next? with
      | none => []
      | some (found, c') => found :: c'.left := by
  obtain ⟨filter, place, projects⟩ := c
  cases place with
  | none => exact leftInProjects_eq filter projects
  | some p =>
    have split : Cursor.left ⟨filter, some p, projects⟩ =
        p.left filter ++ leftInProjects filter projects := rfl
    rw [split, Place.left_eq]
    simp only [Cursor.next?, Option.bind_some]
    cases p.next? filter with
    | none => exact leftInProjects_eq filter projects
    | some r => rfl

theorem left_of_next? {c c' : Cursor} {found : Declaration} (h : c.next? = some (found, c')) :
    c.left = found :: c'.left := by rw [left_eq, h]

/-- Everything in front of a cursor, one `next?` after another. -/
def toList (c : Cursor) : List Declaration :=
  match _h : c.next? with
  | none => []
  | some (found, c') => found :: c'.toList
termination_by c.left.length
decreasing_by simp [left_of_next? _h]

end Cursor
end Query
end CodeWorkspace
