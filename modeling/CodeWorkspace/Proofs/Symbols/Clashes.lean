import CodeWorkspace.Proofs.Symbols.Binding

/-! When binding reports an error. The table keeps the first declaration of a name, and every later one is compared
with that alone; this finds a clash wherever two declarations of one name clash at all. -/
namespace CodeWorkspace

namespace Occurrence

variable {o p : Occurrence} {x : Symbol}

theorem clashes_eq_false :
    o.clashes x = false ↔
      o.visit.node.kind = .namespaceDecl ∨ o.visit.node.kind.isTypeLike = false ∧ x.kind.isTypeLike = false := by
  simp only [clashes, Bool.and_eq_false_iff, Bool.or_eq_false_iff, decide_eq_false_iff_not, not_not]
  exact or_comm

theorem not_typeLike_of_namespace (h : o.visit.node.kind = .namespaceDecl) :
    o.visit.node.kind.isTypeLike = false := by
  rw [h]
  rfl

/-- Nothing is said against the second declaration where the first one stands. -/
def Admits (o p : Occurrence) : Prop :=
  o.visit.qualifiedName = p.visit.qualifiedName → p.clashes o.symbol = false

instance (o p : Occurrence) : Decidable (o.Admits p) :=
  inferInstanceAs (Decidable (_ → _))

/-- Two declarations that both get past the one that was kept get past each other. -/
theorem admits_of_kept (first : o.clashes x = false) (second : p.clashes x = false) : o.Admits p := by
  intro _
  rw [clashes_eq_false] at first second ⊢
  rcases second with reopens | ⟨plain, kept⟩
  · exact .inl reopens
  · have other : o.visit.node.kind.isTypeLike = false := by
      rcases first with reopens | ⟨plain, -⟩
      · exact not_typeLike_of_namespace reopens
      · exact plain
    exact .inr ⟨plain, other⟩

/-- A type never comes second. -/
theorem Admits.name_ne (h : o.Admits p) (type : p.visit.node.kind.isTypeLike = true) :
    o.visit.qualifiedName ≠ p.visit.qualifiedName := by
  intro same
  have free := clashes_eq_false.mp (h same)
  rcases free with reopens | ⟨plain, -⟩
  · rw [not_typeLike_of_namespace reopens] at type
    cases type
  · rw [plain] at type
    cases type

/-- Behind a type there is room for namespaces only. -/
theorem Admits.eq_namespace (h : o.Admits p) (type : o.visit.node.kind.isTypeLike = true)
    (same : o.visit.qualifiedName = p.visit.qualifiedName) : p.visit.node.kind = .namespaceDecl := by
  have free := clashes_eq_false.mp (h same)
  refine free.resolve_right ?_
  rintro ⟨-, plain⟩
  rw [show o.symbol.kind = o.visit.node.kind from rfl, type] at plain
  cases plain

end Occurrence

namespace Bound

variable {references : List Symbols} {b : Bound} {o : Occurrence} {os : List Occurrence}

/-! ## What the table answers -/

theorem get?_add (references : List Symbols) (b : Bound) (o : Occurrence) (name : String) :
    (add references b o).symbols.get? name =
      (b.symbols.get? name).or (if o.visit.qualifiedName = name then some o.symbol else none) := by
  cases found : b.symbols.get? o.visit.qualifiedName with
  | none =>
    rw [add_free found, Symbols.get?, List.find?_append, List.find?_singleton]
    simp only [decide_eq_true_eq]
    rfl
  | some x =>
    rw [add_taken found]
    by_cases here : o.visit.qualifiedName = name
    · rw [← here, found]
      rfl
    · rw [if_neg here, Option.or_none]

/-- The first declaration of a name keeps it. -/
theorem get?_foldl (references : List Symbols) (b : Bound) (os : List Occurrence) (name : String) :
    (os.foldl (add references) b).symbols.get? name =
      (b.symbols.get? name).or ((os.find? (·.visit.qualifiedName = name)).map (·.symbol)) := by
  induction os generalizing b with
  | nil => simp
  | cons o rest ih =>
    rw [List.foldl_cons, ih, get?_add, Option.or_assoc, List.find?_cons]
    by_cases here : o.visit.qualifiedName = name <;> simp [here]

/-! ## Errors -/

theorem any_isError_warnings (references : List Symbols) (o : Occurrence) :
    (warnings references o).any (·.isError) = false := by
  unfold warnings
  cases o.hidden? references <;> rfl

theorem clean_add_free (free : b.symbols.get? o.visit.qualifiedName = none) :
    (add references b o).diagnostics.any (·.isError) = b.diagnostics.any (·.isError) := by
  rw [add_free free, List.any_append, any_isError_warnings, Bool.or_false]

theorem clean_add_taken {x : Symbol} (taken : b.symbols.get? o.visit.qualifiedName = some x) :
    (add references b o).diagnostics.any (·.isError) = (b.diagnostics.any (·.isError) || o.clashes x) := by
  rw [add_taken taken, List.any_append, List.any_append, any_isError_warnings, Bool.or_false]
  cases o.clashes x <;> rfl

/-- A table lets a declaration pass that does not clash with what is kept under its name. -/
def Passes (b : Bound) (o : Occurrence) : Prop :=
  ∀ x, b.symbols.get? o.visit.qualifiedName = some x → o.clashes x = false

/-- What passes behind one more declaration is what passed before, and is admitted by that declaration. -/
theorem passes_add {p : Occurrence} (passes : b.Passes o) :
    (add references b o).Passes p ↔ b.Passes p ∧ o.Admits p := by
  unfold Passes
  rw [get?_add]
  cases found : b.symbols.get? p.visit.qualifiedName with
  | none =>
    simp only [Option.none_or, reduceCtorEq, false_implies, implies_true, true_and]
    constructor
    · intro h same
      exact h o.symbol (if_pos same)
    · intro h x kept
      split at kept
      · next same =>
        cases kept
        exact h same
      · cases kept
  | some y =>
    simp only [Option.some_or, Option.some.injEq, forall_eq', iff_self_and]
    intro free same
    rw [← same] at found
    exact Occurrence.admits_of_kept (passes y found) free same

/-- Though only the kept declaration is looked at, no two that clash get through. -/
theorem clean_foldl (references : List Symbols) (b : Bound) (os : List Occurrence) :
    (os.foldl (add references) b).diagnostics.any (·.isError) = false ↔
      b.diagnostics.any (·.isError) = false ∧ (∀ o ∈ os, b.Passes o) ∧ os.Pairwise Occurrence.Admits := by
  induction os generalizing b with
  | nil => simp
  | cons o rest ih =>
    have here : (add references b o).diagnostics.any (·.isError) = false ↔
        b.diagnostics.any (·.isError) = false ∧ b.Passes o := by
      cases found : b.symbols.get? o.visit.qualifiedName with
      | none => simp [clean_add_free found, Passes, found]
      | some x => simp [clean_add_taken found, Passes, found]
    rw [List.foldl_cons, ih, here, List.forall_mem_cons, List.pairwise_cons]
    constructor
    · rintro ⟨⟨clean, passes⟩, behind, pairs⟩
      have each := fun p hp => (passes_add passes).mp (behind p hp)
      exact ⟨clean, ⟨passes, fun p hp => (each p hp).1⟩, fun p hp => (each p hp).2, pairs⟩
    · rintro ⟨clean, ⟨passes, before⟩, admits, pairs⟩
      exact ⟨⟨clean, passes⟩, fun p hp => (passes_add passes).mpr ⟨before p hp, admits p hp⟩, pairs⟩

theorem get?_ofUnits (project : String) (units : List SourceUnit) (references : List Symbols) (name : String) :
    (ofUnits project units references).symbols.get? name =
      ((units.flatMap (·.occurrences)).find? (·.visit.qualifiedName = name)).map (·.symbol) := by
  rw [ofUnits, get?_foldl]
  rfl

/-- Binding is clean if and only if every declaration admits each that comes behind it. -/
theorem clean_ofUnits (project : String) (units : List SourceUnit) (references : List Symbols) :
    (ofUnits project units references).diagnostics.any (·.isError) = false ↔
      (units.flatMap (·.occurrences)).Pairwise Occurrence.Admits := by
  rw [ofUnits, clean_foldl]
  simp [Passes, Symbols.get?]

/-! ## Types -/

/-- Where every declaration admits each behind it, a type is the first of its name, and only namespaces follow. -/
theorem alone_of_admits {before after : List Occurrence} (pairs : (before ++ o :: after).Pairwise Occurrence.Admits)
    (type : o.visit.node.kind.isTypeLike = true) :
    (∀ p ∈ before, p.visit.qualifiedName ≠ o.visit.qualifiedName) ∧
      ∀ p ∈ after, p.visit.qualifiedName = o.visit.qualifiedName → p.visit.node.kind = .namespaceDecl := by
  rw [List.pairwise_append, List.pairwise_cons] at pairs
  obtain ⟨-, ⟨behind, -⟩, across⟩ := pairs
  exact ⟨fun p hp => (across p hp o List.mem_cons_self).name_ne type,
    fun p hp same => (behind p hp).eq_namespace type same.symm⟩

/-- No type shares its name with another declaration. -/
def TypesAlone (declared : List Occurrence) : Prop :=
  ∀ before o after, declared = before ++ o :: after → o.visit.node.kind.isTypeLike = true →
    ∀ p ∈ before ++ after, p.visit.qualifiedName ≠ o.visit.qualifiedName

theorem admits_of_typesAlone (alone : TypesAlone os) : os.Pairwise Occurrence.Admits := by
  rw [List.pairwise_iff_forall_sublist]
  intro o p pair same
  obtain ⟨front, back, split, ho, hp⟩ := List.cons_sublist_iff.mp pair
  rw [List.singleton_sublist] at hp
  have plain_first : o.visit.node.kind.isTypeLike = false := by
    rw [← Bool.not_eq_true]
    intro type
    obtain ⟨before, between, rfl⟩ := List.append_of_mem ho
    exact alone before o (between ++ back) (by simp [split]) type p (by simp [hp]) same.symm
  have plain_second : p.visit.node.kind.isTypeLike = false := by
    rw [← Bool.not_eq_true]
    intro type
    obtain ⟨between, after, rfl⟩ := List.append_of_mem hp
    exact alone (front ++ between) p after (by simp [split]) type o (by simp [ho]) same
  exact Occurrence.clashes_eq_false.mpr (.inr ⟨plain_second, plain_first⟩)

theorem find?_of_first {before after : List Occurrence}
    (first : ∀ p ∈ before, p.visit.qualifiedName ≠ o.visit.qualifiedName) :
    (before ++ o :: after).find? (·.visit.qualifiedName = o.visit.qualifiedName) = some o := by
  have unmet : before.find? (·.visit.qualifiedName = o.visit.qualifiedName) = none := by
    rw [List.find?_eq_none]
    intro p hp
    simpa using first p hp
  rw [List.find?_append, unmet, Option.none_or]
  exact List.find?_cons_of_pos (by simp)

/-- Where binding is clean, every type is the table's entry for its name, and only namespaces share the name with it.
Where no type shares its name with any other declaration, binding is clean. -/
theorem types_unambiguous (project : String) (units : List SourceUnit) (references : List Symbols) :
    let declared := units.flatMap (·.occurrences)
    let bound := ofUnits project units references
    (bound.diagnostics.any (·.isError) = false →
        ∀ before o after, declared = before ++ o :: after → o.visit.node.kind.isTypeLike = true →
          bound.symbols.get? o.visit.qualifiedName = some o.symbol ∧
            ∀ p ∈ before ++ after, p.visit.qualifiedName = o.visit.qualifiedName →
              p.visit.node.kind = .namespaceDecl) ∧
      ((∀ before o after, declared = before ++ o :: after → o.visit.node.kind.isTypeLike = true →
          ∀ p ∈ before ++ after, p.visit.qualifiedName ≠ o.visit.qualifiedName) →
        bound.diagnostics.any (·.isError) = false) := by
  intro declared bound
  constructor
  · intro clean before o after split type
    have pairs : declared.Pairwise Occurrence.Admits := (clean_ofUnits project units references).mp clean
    rw [split] at pairs
    obtain ⟨first, behind⟩ := alone_of_admits pairs type
    constructor
    · rw [get?_ofUnits, show units.flatMap (·.occurrences) = before ++ o :: after from split, find?_of_first first]
      rfl
    · intro p hp same
      rcases List.mem_append.mp hp with hp | hp
      · exact absurd same (first p hp)
      · exact behind p hp same
  · intro alone
    exact (clean_ofUnits project units references).mpr (admits_of_typesAlone alone)

end Bound

/-! ## Small documents -/

/-- A document of this one declaration. -/
def SourceUnit.declaring (path : String) (kind : DeclKind) (name : String) : SourceUnit where
  path := ⟨path⟩
  tree := ⟨[⟨kind, some name, ⟨0, 5⟩, []⟩], 5⟩
  lines := ⟨[], 5⟩

namespace Bound

/-- A class, and behind it a namespace of its name. -/
def reopened : List SourceUnit := [.declaring "a.cs" .classDecl "N", .declaring "b.cs" .namespaceDecl "N"]

/-- A class and a function with names of their own. -/
def unshared : List SourceUnit := [.declaring "a.cs" .classDecl "N", .declaring "b.cs" .functionDecl "f"]

theorem types_unambiguous_reopened :
    (ofUnits "Lib" reopened []).diagnostics.any (·.isError) = false ∧
      (ofUnits "Lib" reopened []).symbols.get? "N" = some ⟨"N", "N", .classDecl, ⟨"a.cs"⟩, ⟨0, 5⟩⟩ ∧
      (ofUnits "Lib" unshared []).diagnostics.any (·.isError) = false := by
  have clean : (ofUnits "Lib" reopened []).diagnostics.any (·.isError) = false := by decide +kernel
  have entry := ((types_unambiguous "Lib" reopened []).1 clean [] _ _ rfl rfl).1
  have distinct : ((unshared.flatMap (·.occurrences)).map (·.visit.qualifiedName)).Nodup := by decide +kernel
  refine ⟨clean, entry, (types_unambiguous "Lib" unshared []).2 fun before o after split _ p hp same => ?_⟩
  rw [split, List.map_append, List.map_cons, List.nodup_middle, ← List.map_append, List.nodup_cons] at distinct
  exact distinct.1 (same ▸ List.mem_map_of_mem hp)

end Bound

/-! ## Documents in another order -/

namespace SourceUnit

/-- A namespace of the first document takes the name of a type of the second. -/
def Preempts (u v : SourceUnit) : Prop :=
  ∃ o ∈ u.occurrences, ∃ p ∈ v.occurrences, o.visit.qualifiedName = p.visit.qualifiedName ∧
    o.visit.node.kind = .namespaceDecl ∧ p.visit.node.kind.isTypeLike = true

instance (u v : SourceUnit) : Decidable (u.Preempts v) :=
  inferInstanceAs (Decidable (∃ o ∈ u.occurrences, _))

/-- Of two declarations of one name in these documents none is a type, unless the other is a namespace. -/
def Agrees (u v : SourceUnit) : Prop :=
  ∀ o ∈ u.occurrences, ∀ p ∈ v.occurrences, o.visit.qualifiedName = p.visit.qualifiedName →
    o.visit.node.kind = .namespaceDecl ∨ p.visit.node.kind = .namespaceDecl ∨
      o.visit.node.kind.isTypeLike = false ∧ p.visit.node.kind.isTypeLike = false

theorem Agrees.symm {u v : SourceUnit} (h : u.Agrees v) : v.Agrees u := by
  intro o ho p hp same
  rcases h p hp o ho same.symm with namespace_ | namespace_ | ⟨plain, plain'⟩
  · exact .inr (.inl namespace_)
  · exact .inl namespace_
  · exact .inr (.inr ⟨plain', plain⟩)

/-- Between documents the order counts for namespaces and types only. -/
theorem admits_iff (u v : SourceUnit) :
    (∀ o ∈ u.occurrences, ∀ p ∈ v.occurrences, o.Admits p) ↔ u.Agrees v ∧ ¬ u.Preempts v := by
  constructor
  · intro admits
    constructor
    · intro o ho p hp same
      rcases Occurrence.clashes_eq_false.mp (admits o ho p hp same) with reopens | ⟨plain, plain'⟩
      · exact .inr (.inl reopens)
      · exact .inr (.inr ⟨plain', plain⟩)
    · rintro ⟨o, ho, p, hp, same, -, type⟩
      exact (admits o ho p hp).name_ne type same
  · rintro ⟨agrees, free⟩ o ho p hp same
    rw [Occurrence.clashes_eq_false]
    rcases agrees o ho p hp same with opened | reopens | ⟨plain, plain'⟩
    · refine .inr ⟨?_, Occurrence.not_typeLike_of_namespace opened⟩
      rw [← Bool.not_eq_true]
      exact fun type => free ⟨o, ho, p, hp, same, opened, type⟩
    · exact .inl reopens
    · exact .inr ⟨plain', plain⟩

/-- No type comes in a later document than a namespace of its name. -/
def TypesFirst (units : List SourceUnit) : Prop := units.Pairwise fun u v => ¬ u.Preempts v

instance (units : List SourceUnit) : Decidable (TypesFirst units) :=
  inferInstanceAs (Decidable (units.Pairwise _))

end SourceUnit

namespace Bound

/-- Of what makes binding clean, only the last part looks at the order of the documents. -/
theorem clean_iff_units (project : String) (units : List SourceUnit) (references : List Symbols) :
    (ofUnits project units references).diagnostics.any (·.isError) = false ↔
      (∀ u ∈ units, u.occurrences.Pairwise Occurrence.Admits) ∧ units.Pairwise SourceUnit.Agrees ∧
        SourceUnit.TypesFirst units := by
  simp only [clean_ofUnits, List.pairwise_flatMap, SourceUnit.admits_iff, SourceUnit.TypesFirst,
    List.pairwise_and_iff]

/-- Whether binding finds errors does not depend on the order of the documents, as long as both orders agree on
whether some type comes in a later document than a namespace of its name. -/
theorem any_isError_perm (project : String) {units permuted : List SourceUnit} (references : List Symbols)
    (perm : units.Perm permuted) (kept : SourceUnit.TypesFirst units ↔ SourceUnit.TypesFirst permuted) :
    (ofUnits project units references).diagnostics.any (·.isError) = true ↔
      (ofUnits project permuted references).diagnostics.any (·.isError) = true := by
  have inside : (∀ u ∈ units, u.occurrences.Pairwise Occurrence.Admits) ↔
      ∀ u ∈ permuted, u.occurrences.Pairwise Occurrence.Admits :=
    forall_congr' fun u => by rw [perm.mem_iff]
  have between : units.Pairwise SourceUnit.Agrees ↔ permuted.Pairwise SourceUnit.Agrees :=
    perm.pairwise_iff fun h => h.symm
  rw [← Bool.not_eq_false, ← Bool.not_eq_false, not_iff_not, clean_iff_units, clean_iff_units, inside, between, kept]

/-- Another class behind the two declarations of one name. -/
def extended : List SourceUnit := reopened ++ [.declaring "c.cs" .classDecl "M"]

/-- The class that came last is moved to the front. -/
theorem any_isError_perm_extended :
    extended.Perm (.declaring "c.cs" .classDecl "M" :: reopened) ∧
      (SourceUnit.TypesFirst extended ↔ SourceUnit.TypesFirst (.declaring "c.cs" .classDecl "M" :: reopened)) ∧
      ((ofUnits "Lib" extended []).diagnostics.any (·.isError) = true ↔
        (ofUnits "Lib" (.declaring "c.cs" .classDecl "M" :: reopened) []).diagnostics.any (·.isError) = true) := by
  have perm : extended.Perm (.declaring "c.cs" .classDecl "M" :: reopened) := List.perm_append_singleton ..
  have kept : SourceUnit.TypesFirst extended ↔
      SourceUnit.TypesFirst (.declaring "c.cs" .classDecl "M" :: reopened) := by decide +kernel
  exact ⟨perm, kept, any_isError_perm "Lib" [] perm kept⟩

/-- A namespace may follow a class of its name, but not the other way round. -/
theorem errors_depend_on_order :
    reopened.Perm reopened.reverse ∧ (ofUnits "Lib" reopened []).diagnostics.any (·.isError) = false ∧
      (ofUnits "Lib" reopened.reverse []).diagnostics.any (·.isError) = true := by
  refine ⟨(List.reverse_perm _).symm, ?_, ?_⟩ <;> decide +kernel

end Bound
end CodeWorkspace
