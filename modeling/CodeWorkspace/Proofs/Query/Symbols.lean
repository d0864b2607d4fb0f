import CodeWorkspace.Job
import CodeWorkspace.Proofs.Query.Cursor
import CodeWorkspace.Proofs.Symbols.Binding
import CodeWorkspace.Toolchain.Outline

/-! The symbols of a snapshot and the declarations that a query finds in it. Both come from the same trees, the one
collected when the snapshot was built, the other found by walking it. -/
namespace CodeWorkspace

/-- A declaration as a table of symbols has it. -/
def Declaration.symbol (d : Declaration) : Symbol where
  name := d.name
  qualifiedName := d.qualifiedName
  kind := d.kind
  path := d.path
  range := d.range

/-- What a query tells of a named node. -/
def Occurrence.declaration (project : String) (o : Occurrence) : Declaration where
  kind := o.visit.node.kind
  name := o.name
  qualifiedName := o.visit.qualifiedName
  range := o.visit.node.range
  span := o.unit.lines.span o.visit.node.range
  path := o.unit.path
  project := project
  depth := o.visit.depth

namespace Snapshot

/-- A walk through the documents of the project alone. -/
def declarations (s : Snapshot) : List Declaration := (Query.mk s .all .project).cursor.toList

theorem inDocument_eq (project : String) (d : CompiledDocument) :
    Query.inDocument .all project d = d.toSourceUnit.occurrences.map (·.declaration project) := by
  unfold Query.inDocument SourceUnit.occurrences
  rw [List.map_filterMap]
  apply List.filterMap_congr
  intro v _
  unfold Query.pick
  cases v.node.name <;> rfl

theorem declarations_eq (s : Snapshot) :
    s.declarations =
      ((s.documents.map (·.toSourceUnit)).flatMap (·.occurrences)).map (·.declaration s.project) := by
  rw [declarations, Query.toList_cursor]
  simp only [Query.declarations, Query.projects, List.flatMap_singleton, List.map_flatMap, List.flatMap_map]
  exact List.flatMap_congr fun d _ => inDocument_eq s.project d

theorem map_symbol_declarations (s : Snapshot) :
    s.declarations.map (·.symbol) =
      ((s.documents.map (·.toSourceUnit)).flatMap (·.occurrences)).map (·.symbol) := by
  rw [declarations_eq, List.map_map]
  rfl

end Snapshot

/-- What a build of the outline toolchain has bound. -/
theorem Job.bound_of_run {j : Job} {s : Snapshot} (made : j.run .outline = .ok s) :
    ∃ references, s.symbols = (Bound.ofUnits j.inputs.project (s.documents.map (·.toSourceUnit)) references).symbols ∧
      (Bound.ofUnits j.inputs.project (s.documents.map (·.toSourceUnit)) references).diagnostics.any (·.isError) =
        false := by
  obtain ⟨y, yields, clean, rfl⟩ := run_eq_ok_iff.mp made
  unfold Inputs.yield at yields
  split at yields
  · cases yields
  · next parse _ =>
    cases yields
    rw [List.any_append, Bool.or_eq_false_iff] at clean
    exact ⟨_, rfl, clean.2⟩

/-! ## The table and the query -/

namespace Snapshot

/-- The table has the first declaration of each qualified name, in the order of the query; and it has all types, no two
of which share a qualified name. -/
theorem entries_eq_declarations {j : Job} {s : Snapshot} (made : j.run .outline = .ok s) :
    s.symbols.entries = (s.declarations.map (·.symbol)).eraseDupsBy Symbol.sameName ∧
      s.symbols.entries.filter (·.kind.isTypeLike) =
        (s.declarations.filter (·.kind.isTypeLike)).map (·.symbol) ∧
      ((s.declarations.filter (·.kind.isTypeLike)).map (·.qualifiedName)).Nodup := by
  obtain ⟨references, symbols, clean⟩ := Job.bound_of_run made
  have types : s.symbols.entries.filter (·.kind.isTypeLike) =
      (s.declarations.filter (·.kind.isTypeLike)).map (·.symbol) := by
    rw [symbols, Bound.types_ofUnits clean, ← map_symbol_declarations, List.filter_map]
    rfl
  refine ⟨by rw [symbols, Bound.entries_ofUnits, map_symbol_declarations], types, ?_⟩
  have names : (s.declarations.filter (·.kind.isTypeLike)).map (·.qualifiedName) =
      (s.symbols.entries.filter (·.kind.isTypeLike)).map (·.qualifiedName) := by
    rw [types, List.map_map]
    rfl
  have distinct := Bound.nodup_ofUnits j.inputs.project (s.documents.map (·.toSourceUnit)) references
  rw [← symbols] at distinct
  rw [names]
  exact distinct.sublist (List.filter_sublist.map _)

/-- A namespace and a function that come again, in a second document too. -/
def repeated : Job where
  inputs := {
    project := "App"
    documents := [
      ⟨⟨"a.cs"⟩, "namespace N.M { class A { fn f(); fn f(); } }", 1⟩,
      ⟨⟨"b.cs"⟩, "namespace N.M { class B {} } fn N();", 1⟩]
    references := [] }
  sequence := 1

theorem entries_eq_declarations_repeated :
    ∃ s, repeated.run .outline = .ok s ∧
      s.symbols.entries = (s.declarations.map (·.symbol)).eraseDupsBy Symbol.sameName ∧
      s.symbols.entries.filter (·.kind.isTypeLike) =
        (s.declarations.filter (·.kind.isTypeLike)).map (·.symbol) ∧
      ((s.declarations.filter (·.kind.isTypeLike)).map (·.qualifiedName)).Nodup := by
  have built : (repeated.run .outline).isOk = true := by decide +kernel
  cases made : repeated.run .outline with
  | error failure =>
    rw [made] at built
    cases built
  | ok s => exact ⟨s, rfl, entries_eq_declarations made⟩

end Snapshot
end CodeWorkspace
