import CodeWorkspace.Symbols.Binding
import Mathlib.Data.List.Nodup

/-! What binding makes of the declarations of a project. The table keeps the first of each qualified name, in the
order in which they come. Where nothing is reported as an error, every type was the first of its name. -/
namespace CodeWorkspace

theorem Symbols.get?_eq_none {s : Symbols} {qualifiedName : String} :
    s.get? qualifiedName = none ↔ s.contains qualifiedName = false := by
  simp [contains]

theorem Symbols.contains_iff {s : Symbols} {qualifiedName : String} :
    s.contains qualifiedName = true ↔ qualifiedName ∈ s.entries.map (·.qualifiedName) := by
  simp [contains, get?]

def Symbol.sameName (a b : Symbol) : Bool := a.qualifiedName == b.qualifiedName

namespace Bound

variable {references : List Symbols} {b : Bound} {o : Occurrence} {os : List Occurrence}

/-! ## One declaration -/

/-- The warning that a declaration earns by hiding one of a referenced project. -/
def warnings (references : List Symbols) (o : Occurrence) : List Diagnostic :=
  ((o.hidden? references).map o.shadowing).toList

theorem add_free (free : b.symbols.get? o.visit.qualifiedName = none) :
    add references b o =
      ⟨{ b.symbols with entries := b.symbols.entries ++ [o.symbol] }, b.diagnostics ++ warnings references o⟩ := by
  simp only [add, Symbols.insert, show b.symbols.get? o.symbol.qualifiedName = none from free]
  rfl

theorem add_taken {x : Symbol} (taken : b.symbols.get? o.visit.qualifiedName = some x) :
    add references b o =
      ⟨b.symbols, b.diagnostics ++ warnings references o ++ if o.clashes x then [o.redefining x] else []⟩ := by
  simp only [add, Symbols.insert, show b.symbols.get? o.symbol.qualifiedName = some x from taken]
  rfl

theorem entries_add (references : List Symbols) (b : Bound) (o : Occurrence) :
    (add references b o).symbols.entries =
      if b.symbols.contains o.visit.qualifiedName then b.symbols.entries else b.symbols.entries ++ [o.symbol] := by
  cases found : b.symbols.get? o.visit.qualifiedName with
  | none => rw [add_free found, Symbols.contains, found]; rfl
  | some x => rw [add_taken found, Symbols.contains, found]; rfl

theorem contains_add (references : List Symbols) (b : Bound) (o : Occurrence) (name : String) :
    (add references b o).symbols.contains name = (b.symbols.contains name || o.visit.qualifiedName == name) := by
  rw [Bool.eq_iff_iff, Bool.or_eq_true, beq_iff_eq, Symbols.contains_iff, Symbols.contains_iff, entries_add]
  split
  · next taken =>
    refine ⟨.inl, ?_⟩
    rintro (known | rfl)
    · exact known
    · exact Symbols.contains_iff.mp taken
  · simp [Occurrence.symbol, eq_comm]

theorem prefix_diagnostics_add (references : List Symbols) (b : Bound) (o : Occurrence) :
    b.diagnostics <+: (add references b o).diagnostics := by
  cases found : b.symbols.get? o.visit.qualifiedName with
  | none =>
    rw [add_free found]
    exact List.prefix_append ..
  | some x =>
    rw [add_taken found, List.append_assoc]
    exact List.prefix_append ..

/-- A type whose name is taken is reported as an error. -/
theorem free_of_typeLike (type : o.visit.node.kind.isTypeLike = true)
    (clean : (add references b o).diagnostics.any (·.isError) = false) :
    b.symbols.contains o.visit.qualifiedName = false := by
  rw [← Symbols.get?_eq_none]
  cases taken : b.symbols.get? o.visit.qualifiedName with
  | none => rfl
  | some x =>
    have notNamespace : o.visit.node.kind ≠ .namespaceDecl := by
      intro h
      rw [h] at type
      cases type
    have clash : o.clashes x = true := by simp [Occurrence.clashes, type, notNamespace]
    have error : (o.redefining x).isError = true := rfl
    rw [add_taken taken, clash] at clean
    simp [error] at clean

/-! ## All of them -/

theorem prefix_diagnostics_foldl (references : List Symbols) (b : Bound) (os : List Occurrence) :
    b.diagnostics <+: (os.foldl (add references) b).diagnostics := by
  induction os generalizing b with
  | nil => exact List.prefix_refl _
  | cons o rest ih => exact (prefix_diagnostics_add references b o).trans (ih _)

/-- Behind what is in the table already come the first of each further name. -/
theorem entries_foldl (references : List Symbols) (b : Bound) (os : List Occurrence) :
    (os.foldl (add references) b).symbols.entries =
      b.symbols.entries ++
        ((os.map (·.symbol)).filter fun x => !b.symbols.contains x.qualifiedName).eraseDupsBy Symbol.sameName := by
  induction os generalizing b with
  | nil => simp
  | cons o rest ih =>
    rw [List.foldl_cons, ih, entries_add, List.map_cons]
    simp only [contains_add]
    by_cases taken : b.symbols.contains o.visit.qualifiedName = true
    · have same : ∀ x : Symbol, (!(b.symbols.contains x.qualifiedName || o.visit.qualifiedName == x.qualifiedName)) =
          !b.symbols.contains x.qualifiedName := by
        intro x
        by_cases known : b.symbols.contains x.qualifiedName = true
        · simp [known]
        · have other : o.visit.qualifiedName ≠ x.qualifiedName := fun h => known (h ▸ taken)
          simp [known, other]
      rw [if_pos taken, List.filter_cons_of_neg (by simpa [Occurrence.symbol] using taken)]
      simp only [same]
    · have others : (rest.map (·.symbol)).filter (fun x => !(b.symbols.contains x.qualifiedName ||
            o.visit.qualifiedName == x.qualifiedName)) =
          ((rest.map (·.symbol)).filter fun x => !b.symbols.contains x.qualifiedName).filter
            (fun x => decide (x.sameName o.symbol = false)) := by
        rw [List.filter_filter]
        apply List.filter_congr
        intro x _
        rw [Bool.not_or, Bool.and_comm, Bool.decide_eq_false, Symbol.sameName, BEq.comm]
        rfl
      rw [if_neg taken, others, List.append_assoc, List.filter_cons_of_pos (by simpa [Occurrence.symbol] using taken),
        List.eraseDupsBy_cons]
      rfl

theorem nodup_foldl (references : List Symbols) {b : Bound} (os : List Occurrence)
    (distinct : (b.symbols.entries.map (·.qualifiedName)).Nodup) :
    ((os.foldl (add references) b).symbols.entries.map (·.qualifiedName)).Nodup := by
  induction os generalizing b with
  | nil => exact distinct
  | cons o rest ih =>
    apply ih
    rw [entries_add]
    split
    · exact distinct
    · next new =>
      rw [Bool.not_eq_true, ← Bool.not_eq_true, Symbols.contains_iff] at new
      rw [List.map_append, List.nodup_append]
      refine ⟨distinct, by simp, fun name mem other here => ?_⟩
      rw [show other = o.visit.qualifiedName from List.mem_singleton.mp here]
      exact fun same => new (same ▸ mem)

/-- Without errors no type is left out. -/
theorem types_foldl (references : List Symbols) (b : Bound) (os : List Occurrence)
    (clean : (os.foldl (add references) b).diagnostics.any (·.isError) = false) :
    (os.foldl (add references) b).symbols.entries.filter (·.kind.isTypeLike) =
      b.symbols.entries.filter (·.kind.isTypeLike) ++ (os.map (·.symbol)).filter (·.kind.isTypeLike) := by
  induction os generalizing b with
  | nil => simp
  | cons o rest ih =>
    have clean_here : (add references b o).diagnostics.any (·.isError) = false := by
      rw [List.any_eq_false] at clean ⊢
      exact fun d mem => clean d ((prefix_diagnostics_foldl references _ rest).subset mem)
    rw [List.foldl_cons, ih _ clean, entries_add, List.map_cons]
    by_cases type : o.visit.node.kind.isTypeLike = true
    · rw [free_of_typeLike type clean_here]
      simp [Occurrence.symbol, type]
    · split <;> simp [Occurrence.symbol, type]

section Units

variable (project : String) (units : List SourceUnit) (references : List Symbols)

theorem entries_ofUnits :
    (ofUnits project units references).symbols.entries =
      ((units.flatMap (·.occurrences)).map (·.symbol)).eraseDupsBy Symbol.sameName := by
  rw [ofUnits, entries_foldl]
  simp [Symbols.contains, Symbols.get?]

theorem nodup_ofUnits : ((ofUnits project units references).symbols.entries.map (·.qualifiedName)).Nodup :=
  nodup_foldl references _ .nil

variable {project units references}

theorem types_ofUnits (clean : (ofUnits project units references).diagnostics.any (·.isError) = false) :
    (ofUnits project units references).symbols.entries.filter (·.kind.isTypeLike) =
      ((units.flatMap (·.occurrences)).map (·.symbol)).filter (·.kind.isTypeLike) :=
  types_foldl references _ _ clean

end Units

end Bound
end CodeWorkspace
