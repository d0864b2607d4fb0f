import CodeWorkspace.Proofs.Request
import CodeWorkspace.Proofs.Snapshot.Content
import CodeWorkspace.Proofs.Store.Succession
import Mathlib.Data.List.Induction

/-! What a toolchain has to say of each project of an order. Nothing here is cached, nothing stops at an error, and each
document is read from one store; a build of the project comes to the same reports. -/
namespace CodeWorkspace

namespace Toolchain

/-- What parsing gives, where the toolchain survives it. -/
def parsed (tc : Toolchain) (d : Document) : Parsed := (tc.parse d.path d.text).toOption.getD default

def unit (tc : Toolchain) (d : Document) : SourceUnit := ⟨d.path, (tc.parsed d).tree, .ofText d.text⟩

/-- What parsing reports, with the path of the document where a report has none. -/
def reports (tc : Toolchain) (d : Document) : List Diagnostic :=
  (tc.parsed d).diagnostics.map fun report => { report with path := some (report.path.getD d.path) }

def bound (tc : Toolchain) (project : String) (units : List SourceUnit) (references : List Symbols) : Bound :=
  (tc.bind project units references).toOption.getD default

theorem reports_eq (tc : Toolchain) (d : Document) :
    tc.reports d = (tc.parsed d).diagnostics.map (·.within d.path) := by
  refine List.map_congr_left fun report _ => ?_
  obtain ⟨severity, message, code, path, span⟩ := report
  cases path <;> rfl

end Toolchain

/-- The symbols of a project, and the reports on its documents with those of the binding behind them. -/
structure Review where
  project : String
  symbols : Symbols
  diagnostics : List Diagnostic

namespace Review

def fails (r : Review) : Bool := r.diagnostics.any (·.isError)

/-- A project with what is reported of it. -/
def entry (r : Review) : String × List Diagnostic := (r.project, r.diagnostics)

/-- The symbols of a project that was reviewed, the last one first. -/
def symbols? (known : List Review) (name : String) : Option Symbols :=
  (known.find? (·.project = name)).map (·.symbols)

def ofProject (tc : Toolchain) (store : Store) (known : List Review) (p : Project) : Review :=
  let documents := p.documents.filterMap store.get?
  let bound := tc.bound p.name (documents.map tc.unit) (p.references.filterMap (symbols? known))
  ⟨p.name, bound.symbols, documents.flatMap tc.reports ++ bound.diagnostics⟩

/-- Behind projects that are known, the last one first. -/
def behind (tc : Toolchain) (store : Store) (known : List Review) : List Project → List Review
  | [] => []
  | p :: rest => ofProject tc store known p :: behind tc store (ofProject tc store known p :: known) rest

/-- What a build comes to that goes by a review. -/
inductive Tells (r : Review) : Except WorkspaceError Snapshot → Prop where
  | failed (fails : r.fails = true) : Tells r (.error (.compilation r.project r.diagnostics))
  | made {s : Snapshot} (clean : r.fails = false) (symbols : s.symbols = r.symbols)
      (diagnostics : s.diagnostics = r.diagnostics) : Tells r (.ok s)

theorem Tells.congr {r : Review} {result result' : Except WorkspaceError Snapshot} (h : r.Tells result)
    (same : unnumbered result' = unnumbered result) : r.Tells result' := by
  cases result' with
  | error =>
    cases h with
    | failed fails =>
      cases same
      exact .failed fails
    | made => cases same
  | ok s =>
    cases h with
    | failed => cases same
    | made clean symbols diagnostics =>
      have alike : s.unnumbered = _ := Except.ok.inj same
      refine .made clean ?_ ?_
      · rw [← s.symbols_unnumbered, alike, Snapshot.symbols_unnumbered, symbols]
      · rw [← s.diagnostics_unnumbered, alike, Snapshot.diagnostics_unnumbered, diagnostics]

end Review

/-- The reviews of an order, each project against the symbols of those before it. -/
def reviews (tc : Toolchain) (store : Store) (order : List Project) : List Review := Review.behind tc store [] order

section Reviews

variable {tc : Toolchain} {store : Store}

theorem Review.behind_append (known : List Review) (front rest : List Project) :
    behind tc store known (front ++ rest) =
      behind tc store known front ++ behind tc store ((behind tc store known front).reverse ++ known) rest := by
  induction front generalizing known with
  | nil => rfl
  | cons p front ih => simp [behind, ih]

theorem reviews_concat (front : List Project) (p : Project) :
    reviews tc store (front ++ [p]) =
      reviews tc store front ++ [.ofProject tc store (reviews tc store front).reverse p] := by
  rw [reviews, Review.behind_append, List.append_nil]
  rfl

/-- What is said of a project does not depend on those behind it. -/
theorem reviews_split (tc : Toolchain) (store : Store) (front : List Project) (p : Project) (rest : List Project) :
    ∃ more, reviews tc store (front ++ p :: rest) =
      reviews tc store front ++ .ofProject tc store (reviews tc store front).reverse p :: more := by
  rw [reviews, Review.behind_append, List.append_nil]
  exact ⟨_, rfl⟩

theorem project_reviews (order : List Project) : (reviews tc store order).map (·.project) = order.map (·.name) := by
  induction order using List.reverseRecOn with
  | nil => rfl
  | append_singleton front p ih =>
    rw [reviews_concat, List.map_append, List.map_append, ih]
    rfl

/-- There is one first failure. -/
theorem Review.first_eq {before before' after after' : List Review} {r r' : Review}
    (same : before ++ r :: after = before' ++ r' :: after') (clean : ∀ x ∈ before, x.fails = false)
    (clean' : ∀ x ∈ before', x.fails = false) (fails : r.fails = true) (fails' : r'.fails = true) :
    before = before' ∧ r = r' := by
  have front {l m : List Review} {x : Review} (clean : ∀ y ∈ l, y.fails = false) (fails : x.fails = true) :
      (l ++ x :: m).takeWhile (!·.fails) = l ∧ (l ++ x :: m).dropWhile (!·.fails) = x :: m := by
    constructor
    · rw [List.takeWhile_append_of_pos (by simpa using clean), List.takeWhile_cons_of_neg (by simp [fails]),
        List.append_nil]
    · rw [List.dropWhile_append_of_pos (by simpa using clean), List.dropWhile_cons_of_neg (by simp [fails])]
  obtain ⟨taken, left⟩ := front (m := after) clean fails
  obtain ⟨taken', left'⟩ := front (m := after') clean' fails'
  rw [same] at taken left
  exact ⟨taken.symm.trans taken', (List.cons.inj (left.symm.trans left')).1⟩

end Reviews

/-! ## Builds -/

namespace Job

variable {tc : Toolchain}

theorem parseAll_eq (robust : tc.IsRobust) (documents : List Document) :
    parseAll tc documents =
      .ok ⟨documents.map fun d => compiled d (tc.parsed d), documents.flatMap tc.reports⟩ := by
  induction documents with
  | nil => rfl
  | cons d rest ih =>
    obtain ⟨parsed, made⟩ := robust.parse d.path d.text
    have same : tc.parsed d = parsed := by rw [Toolchain.parsed, made]; rfl
    rw [parseAll, made, ih, List.map_cons, List.flatMap_cons, tc.reports_eq, same]

theorem bind_eq (robust : tc.IsRobust) (i : Inputs) :
    bind tc i (i.documents.map fun d => compiled d (tc.parsed d)) =
      .ok (tc.bound i.project (i.documents.map tc.unit) (i.references.map (·.symbols))) := by
  have units : (i.documents.map fun d => compiled d (tc.parsed d)).map (·.toSourceUnit) = i.documents.map tc.unit := by
    rw [List.map_map]
    rfl
  obtain ⟨bound, made⟩ := robust.bind i.project (i.documents.map tc.unit) (i.references.map (·.symbols))
  rw [bind, units, Toolchain.bound, made]
  rfl

/-- A build of these inputs comes to what the review tells. -/
structure Inputs.IsReviewed (tc : Toolchain) (i : Inputs) (r : Review) : Prop where
  project : i.project = r.project
  told : ∀ n, r.Tells (Job.run tc ⟨i, n⟩)

theorem Inputs.isReviewed (robust : tc.IsRobust) {i : Inputs} {r : Review} (project : i.project = r.project)
    (symbols : (tc.bound i.project (i.documents.map tc.unit) (i.references.map (·.symbols))).symbols = r.symbols)
    (diagnostics : i.documents.flatMap tc.reports ++
      (tc.bound i.project (i.documents.map tc.unit) (i.references.map (·.symbols))).diagnostics = r.diagnostics) :
    i.IsReviewed tc r := by
  have yields : i.yield tc = .ok ⟨i.documents.map fun d => compiled d (tc.parsed d), r.symbols, r.diagnostics⟩ := by
    rw [yield, parseAll_eq robust]
    dsimp only
    rw [bind_eq robust, ← symbols, ← diagnostics]
  refine ⟨project, fun n => ?_⟩
  cases fails : r.fails with
  | true =>
    have failed : run tc ⟨i, n⟩ = .error (.compilation r.project r.diagnostics) := by
      simp only [run, yields]
      rw [← project]
      exact if_pos fails
    rw [failed]
    exact .failed fails
  | false =>
    have made : run tc ⟨i, n⟩ = .ok (snapshot ⟨i, n⟩ ⟨_, r.symbols, r.diagnostics⟩) :=
      run_eq_ok_iff.mpr ⟨_, yields, fails, rfl⟩
    rw [made]
    exact .made fails rfl rfl

end Job

namespace Request

variable {tc : Toolchain} {store : Store} {order taken : List Project} {q : Request} {i : Job.Inputs}

/-- What a review tells of a snapshot that was given. -/
def reviewed (x : String × Snapshot) : Review := ⟨x.1, x.2.symbols, x.2.diagnostics⟩

theorem symbols_of_references {names : List String} {references : List Snapshot}
    (found : q.references names = .ok references) :
    names.filterMap (Review.symbols? (q.built.map reviewed)) = references.map (·.symbols) := by
  induction names generalizing references with
  | nil =>
    cases found
    rfl
  | cons name rest ih =>
    rw [Request.references] at found
    split at found
    · cases found
    · next s here =>
      split at found
      · cases found
      · next more looked =>
        cases found
        have symbols : Review.symbols? (q.built.map reviewed) name = some s.symbols := by
          rw [snapshot?, Option.map_eq_some_iff] at here
          obtain ⟨x, first, rfl⟩ := here
          rw [Review.symbols?, List.find?_map]
          have same : (fun r : Review => decide (r.project = name)) ∘ reviewed = fun x => decide (x.1 = name) := rfl
          rw [same, first]
          rfl
        rw [List.filterMap_cons_some symbols, ih looked, List.map_cons]

/-- What comes next on the way is built as it is reviewed. -/
theorem isReviewed_of_needs (robust : tc.IsRobust) (along : q.Along store order taken)
    (given : q.built.map reviewed = (reviews tc store taken).reverse) (needs : q.demand = .needs i) :
    ∃ p rest, q.remaining = (p, i.documents) :: rest ∧
      i.IsReviewed tc (.ofProject tc store (reviews tc store taken).reverse p) := by
  obtain ⟨p, rest, remaining, name, found⟩ := demand_eq_needs needs
  have captured := along.captured (p, i.documents) (by rw [remaining]; exact List.mem_cons_self)
  have documents : p.documents.filterMap store.get? = i.documents := Store.filterMap_of_capture captured
  have symbols := symbols_of_references found
  rw [given] at symbols
  refine ⟨p, rest, remaining, Job.Inputs.isReviewed robust name ?_ ?_⟩
  · rw [Review.ofProject, documents, symbols, name]
  · rw [Review.ofProject, documents, symbols, name]

end Request
end CodeWorkspace
