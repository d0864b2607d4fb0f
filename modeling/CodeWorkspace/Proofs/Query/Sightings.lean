import CodeWorkspace.Proofs.Query.Cursor
import Mathlib.Data.List.Basic

/-! What a query comes by and what it yields. A walk comes by the same named nodes whatever the filter is; the filter
only says which of them are yielded. So the answers of two filters can be compared place by place, even where two nodes
give the same declaration. -/
namespace CodeWorkspace

/-- A named node that a walk comes by, in its document and project. -/
structure Sighting where
  project : String
  document : CompiledDocument
  visit : Visit
  name : String

namespace Sighting

/-- Unnamed nodes are passed over. -/
def of? (project : String) (document : CompiledDocument) (visit : Visit) : Option Sighting :=
  visit.node.name.map fun name => ⟨project, document, visit, name⟩

def declaration (s : Sighting) : Declaration where
  kind := s.visit.node.kind
  name := s.name
  qualifiedName := s.visit.qualifiedName
  range := s.visit.node.range
  span := s.document.lines.span s.visit.node.range
  path := s.document.path
  project := s.project
  depth := s.visit.depth

end Sighting

namespace Query

/-- The named nodes of the project alone or of all that it leads to, project by project, document by document, in
pre-order. -/
def sightings (q : Query) : List Sighting :=
  let snapshots : List Snapshot := match q.scope with
    | .project => [q.snapshot]
    | .transitive => q.snapshot.transitive
  snapshots.flatMap fun s => s.documents.flatMap fun d => d.tree.visits.filterMap (Sighting.of? s.project d)

/-- Those of them that the filter accepts. -/
def accepted (q : Query) : List Sighting := q.sightings.filter (q.filter.accepts ·.visit)

/-- What the query yields, each answer with its place among the named nodes of the scope. -/
def numbered (q : Query) : List (Nat × Declaration) :=
  (q.sightings.zipIdx.filter (q.filter.accepts ·.1.visit)).map fun (s, place) => (place, s.declaration)

/-! ## Answer by answer -/

namespace Cursor

/-- One cursor comes out of the other by asking for the next declaration so many times. -/
inductive Advances : Cursor → List Declaration → Cursor → Prop where
  | refl (c : Cursor) : Advances c [] c
  | next {c c' c'' : Cursor} {found : Declaration} {more : List Declaration} (answer : c.next? = some (found, c'))
      (behind : Advances c' more c'') : Advances c (found :: more) c''

/-- Asked until there is no answer, the cursor has given these. -/
def Yields (c : Cursor) (found : List Declaration) : Prop := ∃ c', c.Advances found c' ∧ c'.next? = none

variable {c c' : Cursor} {found : List Declaration}

theorem Advances.left_eq (h : c.Advances found c') : c.left = found ++ c'.left := by
  induction h with
  | refl => rfl
  | next answer _ ih => rw [left_of_next? answer, ih, List.cons_append]

theorem yields_left (c : Cursor) : c.Yields c.left := by
  rw [← toList_eq_left]
  fun_induction toList c with
  | case1 c none => exact ⟨c, .refl c, none⟩
  | case2 c found c' answer ih =>
    obtain ⟨c'', behind, none⟩ := ih
    exact ⟨c'', .next answer behind, none⟩

theorem yields_iff : c.Yields found ↔ found = c.left := by
  constructor
  · rintro ⟨c', advances, none⟩
    have nothing : c'.left = [] := by rw [Cursor.left_eq, none]
    rw [advances.left_eq, nothing, List.append_nil]
  · rintro rfl
    exact yields_left c

end Cursor

/-! ## Declarations and sightings -/

theorem pick_eq (filter : Filter) (project : String) (d : CompiledDocument) (v : Visit) :
    pick filter project d v =
      ((Sighting.of? project d v).filter (filter.accepts ·.visit)).map (·.declaration) := by
  unfold pick Sighting.of?
  cases v.node.name with
  | none => rfl
  | some name =>
    by_cases accepts : filter.accepts v = true
    · simp [Option.filter, accepts, Sighting.declaration]
    · simp [Option.filter, accepts]

theorem inDocument_eq (filter : Filter) (project : String) (d : CompiledDocument) :
    inDocument filter project d =
      ((d.tree.visits.filterMap (Sighting.of? project d)).filter (filter.accepts ·.visit)).map (·.declaration) := by
  rw [inDocument, List.filter_filterMap, List.map_filterMap]
  exact List.filterMap_congr fun v _ => pick_eq filter project d v

theorem declarations_eq (q : Query) : q.declarations = q.accepted.map (·.declaration) := by
  obtain ⟨snapshot, filter, scope⟩ := q
  cases scope with
  | project | transitive =>
    simp only [declarations, projects, accepted, sightings, List.filter_flatMap, List.map_flatMap, ← inDocument_eq]

theorem cursor_left (q : Query) : q.cursor.left = q.accepted.map (·.declaration) := by
  rw [← Cursor.toList_eq_left, toList_cursor, declarations_eq]

/-! ## Places -/

theorem map_numbered (q : Query) : q.numbered.map (·.2) = q.accepted.map (·.declaration) := by
  have places : q.accepted = (q.sightings.zipIdx.filter (q.filter.accepts ·.1.visit)).map (·.1) := by
    have unnumbered : q.sightings.zipIdx.map (·.1) = q.sightings := List.zipIdx_map_fst 0 q.sightings
    rw [accepted, ← unnumbered, List.filter_map, unnumbered]
    rfl
  rw [places, numbered, List.map_map, List.map_map]
  rfl

section Filters

variable (q : Query) (f g : Filter)

theorem numbered_all : ({ q with filter := .all } : Query).numbered =
    q.sightings.zipIdx.map fun (s, place) => (place, s.declaration) := by
  have everything : q.sightings.zipIdx.filter (Filter.all.accepts ·.1.visit) = q.sightings.zipIdx :=
    List.filter_eq_self.mpr fun _ _ => rfl
  exact congrArg _ everything

/-- A place holds one sighting, so what a filter says of it decides whether it is among the answers. -/
theorem mem_numbered_iff {s : Sighting} {place : Nat} (mem : (s, place) ∈ q.sightings.zipIdx) :
    (place, s.declaration) ∈ ({ q with filter := f } : Query).numbered ↔ f.accepts s.visit = true := by
  simp only [numbered, List.mem_map, List.mem_filter, Prod.mk.injEq]
  constructor
  · rintro ⟨⟨s', place'⟩, ⟨mem', accepts⟩, rfl, -⟩
    have here := List.mem_zipIdx_iff_getElem?.mp mem
    have there : q.sightings[place']? = some s' := List.mem_zipIdx_iff_getElem?.mp mem'
    obtain rfl : s = s' := Option.some.inj (here.symm.trans there)
    exact accepts
  · intro accepts
    exact ⟨(s, place), ⟨mem, accepts⟩, rfl, rfl⟩

/-- A query's answers out of those of a wider one. -/
theorem numbered_eq_filter {narrow wide : Filter} {chosen : Nat × Declaration → Bool}
    (agree : ∀ s place, (s, place) ∈ q.sightings.zipIdx →
      narrow.accepts s.visit = (chosen (place, s.declaration) && wide.accepts s.visit)) :
    ({ q with filter := narrow } : Query).numbered = ({ q with filter := wide } : Query).numbered.filter chosen := by
  unfold numbered
  rw [List.filter_map, List.filter_filter]
  congr 1
  apply List.filter_congr
  rintro ⟨s, place⟩ mem
  exact agree s place mem

theorem numbered_both : ({ q with filter := .both f g } : Query).numbered =
    ({ q with filter := f } : Query).numbered.filter (· ∈ ({ q with filter := g } : Query).numbered) := by
  apply numbered_eq_filter
  intro s place mem
  simp [mem_numbered_iff q g mem, Filter.accepts, Bool.and_comm]

theorem numbered_either : ({ q with filter := .either f g } : Query).numbered =
    ({ q with filter := .all } : Query).numbered.filter fun found =>
      found ∈ ({ q with filter := f } : Query).numbered ∨ found ∈ ({ q with filter := g } : Query).numbered := by
  apply numbered_eq_filter
  intro s place mem
  simp [mem_numbered_iff q f mem, mem_numbered_iff q g mem, Filter.accepts]

end Filters

/-- A query yields the named nodes of its scope that its filter accepts, in the order of the walk, and always the same:
however far a walk has come, it goes on with the rest of them. The answers of all filters are numbered alike, from 0
without a gap for the filter that accepts everything; both of two filters yield what each of them yields, and either of
them what one of them yields. -/
theorem cursor_yields_accepted (q : Query) (f g : Filter) :
    let under (f : Filter) : Query := { q with filter := f }
    (∀ found, q.cursor.Yields found ↔
        found = (q.sightings.filter (q.filter.accepts ·.visit)).map (·.declaration)) ∧
      (∀ front c, q.cursor.Advances front c → ∀ found, c.Yields found ↔
        front ++ found = (q.sightings.filter (q.filter.accepts ·.visit)).map (·.declaration)) ∧
      (∀ f, (under f).cursor.Yields ((under f).numbered.map (·.2)) ∧
        (under f).numbered.Sublist (under .all).numbered) ∧
      (under .all).numbered.map (·.1) = List.range (under .all).numbered.length ∧
      (under (.both f g)).numbered = (under f).numbered.filter (· ∈ (under g).numbered) ∧
      (under (.either f g)).numbered = (under .all).numbered.filter fun found =>
        found ∈ (under f).numbered ∨ found ∈ (under g).numbered := by
  intro under
  refine ⟨fun found => ?_, fun front c advances found => ?_, fun f => ⟨?_, ?_⟩, ?_, numbered_both q f g,
    numbered_either q f g⟩
  · rw [Cursor.yields_iff, cursor_left]
    rfl
  · rw [Cursor.yields_iff, ← List.append_right_inj front, ← advances.left_eq, cursor_left]
    rfl
  · rw [Cursor.yields_iff, cursor_left, map_numbered]
  · have all : (under f).numbered = (under .all).numbered.filter (· ∈ (under f).numbered) := by
      apply numbered_eq_filter
      intro s place mem
      simp [under, mem_numbered_iff q f mem, Filter.accepts]
    rw [all]
    exact List.filter_sublist
  · rw [numbered_all, List.map_map, List.length_map, List.length_zipIdx, List.range_eq_range', ← List.zipIdx_map_snd]
    rfl

end Query
end CodeWorkspace
