import CodeWorkspace.Proofs.Session.Faults
import CodeWorkspace.Proofs.Solution.Checking
import CodeWorkspace.Proofs.Store.History
import CodeWorkspace.Proofs.Store.Loading

/-! Opening a solution in a workspace that loads what its store does not hold. It fills the gaps of the store and does
nothing else, or else it fails and has done nothing at all. From then on no document of the solution is missing, until
one is evicted. -/
namespace CodeWorkspace

/-! ## Gaps -/

/-- The spelling in which a place is listed first. -/
def Solution.spelling? (s : Solution) (p : Path) : Option Path := s.listed.find? (·.same p)

namespace Solution

variable {s : Solution} {p q : Path}

theorem spelling?_congr (s : Solution) (same : p.same q = true) : s.spelling? p = s.spelling? q := by
  have alike : (fun r : Path => r.same p) = fun r => r.same q := funext fun r => Path.same_congr same r
  rw [spelling?, spelling?, alike]

theorem same_of_spelling? (first : s.spelling? p = some q) : q.same p = true := by
  simpa using List.find?_some first

theorem exists_spelling? (listed : p ∈ s.listed) : ∃ q, s.spelling? p = some q :=
  Option.isSome_iff_exists.mp (List.find?_isSome.mpr ⟨p, listed, p.same_refl⟩)

end Solution

namespace Store

/-- The documents of a solution that are not held, each in the spelling that is listed first. -/
def gaps (s : Store) (solution : Solution) : List Path :=
  solution.listed.filter fun p => !s.contains p && decide (solution.spelling? p = some p)

/-- What opening makes of a store. -/
structure Filled (disk : Disk) (solution : Solution) (s t : Store) : Prop where
  held : ∀ p, s.contains p = true → t.record? p = s.record? p
  unlisted : ∀ p, solution.spelling? p = none → t.record? p = s.record? p
  missing : ∀ p q, s.contains p = false → solution.spelling? p = some q →
    ∃ text, disk.read q = .ok text ∧ t.get? p = some ⟨q, text, s.lastVersion p + 1⟩ ∧
      t.lastVersion p = s.lastVersion p + 1
  /-- Whatever the store held before, it was an older version. -/
  newer : ∀ history later p old new, s = edited (edited {} history) later → s.contains p = false →
    (edited {} history).get? p = some old → t.get? p = some new → old.version < new.version

/-- No eviction concerns any of these documents. -/
def Spares (paths : List Path) (edits : List Edit) : Prop :=
  ∀ q, .evict q ∈ edits → ∀ p ∈ paths, q.same p = false

variable {s t : Store} {solution : Solution} {p q : Path} {edits : List Edit}

theorem contains_congr (s : Store) (same : p.same q = true) : s.contains p = s.contains q := by
  rw [contains, contains, get?_congr s same]

theorem contains_of_record?_eq (same : t.record? p = s.record? p) : t.contains p = s.contains p := by
  rw [contains, contains, get?, get?, same]

theorem mem_gaps_iff : p ∈ s.gaps solution ↔ s.contains p = false ∧ solution.spelling? p = some p := by
  rw [gaps, List.mem_filter, Bool.and_eq_true, Bool.not_eq_true', decide_eq_true_iff]
  exact ⟨And.right, fun gap => ⟨List.mem_of_find?_eq_some gap.2, gap⟩⟩

/-- On a disk that knows no spellings it is all the same in which of them a document is read. -/
theorem exists_gap_fails_iff {disk : Disk} (place : disk.ByPlace) :
    (∃ p ∈ s.gaps solution, disk.fails p = true) ↔
      ∃ p ∈ solution.listed, s.contains p = false ∧ disk.fails p = true := by
  constructor
  · rintro ⟨p, mem, failed⟩
    obtain ⟨absent, first⟩ := mem_gaps_iff.mp mem
    exact ⟨p, List.mem_of_find?_eq_some first, absent, failed⟩
  · rintro ⟨p, listed, absent, failed⟩
    obtain ⟨q, first⟩ := Solution.exists_spelling? listed
    have same := Solution.same_of_spelling? first
    refine ⟨q, mem_gaps_iff.mpr ?_, by rw [place.fails_eq same, failed]⟩
    rw [contains_congr s same, Solution.spelling?_congr solution same]
    exact ⟨absent, first⟩

/-- What is held elsewhere does not change the spelling that comes first. -/
theorem find?_absent (absent : s.contains p = false) :
    (solution.listed.filter (!s.contains ·)).find? (·.same p) = solution.spelling? p := by
  rw [List.find?_filter, Solution.spelling?]
  congr 1
  funext r
  cases same : r.same p with
  | false => simp
  | true => simp [contains_congr s same, absent]

theorem contains_put (s : Store) (p q : Path) (text : String) :
    (s.put q text).contains p = (q.same p || s.contains p) := by
  rw [contains, get?_put]
  cases q.same p <;> rfl

theorem contains_edited (held : s.contains p = true) (spares : ∀ q, .evict q ∈ edits → q.same p = false) :
    (s.edited edits).contains p = true := by
  induction edits generalizing s with
  | nil => exact held
  | cons e rest ih =>
    refine ih ?_ fun q mem => spares q (List.mem_cons_of_mem e mem)
    cases e with
    | put q text => rw [edit, contains_put, held, Bool.or_true]
    | evict q => rwa [edit, contains, get?_evict, if_neg (by simp [spares q List.mem_cons_self])]

end Store

namespace Workspace

section Missing

variable {store : Store} {s : Solution} {ps : Projects} {p : Path}

theorem documents_of_ofSolution (accepted : Projects.ofSolution s = .ok ps) :
    ps.all.flatMap (·.documents) = s.listed := by
  have whole := Projects.wellFormed_of_ofSolution accepted
  obtain rfl := Except.ok.inj (accepted.symm.trans (Projects.ofSolution_of_wellFormed whole))
  exact List.flatMap_map ..

theorem not_fault_of_ofSolution (accepted : Projects.ofSolution s = .ok ps) : ¬∃ e, s.Fault e := by
  rintro ⟨e, fault⟩
  cases accepted.symm.trans (Projects.ofSolution_eq_error.mpr fault)

theorem missing_eq (store : Store) (accepted : Projects.ofSolution s = .ok ps) :
    store.missing ps = Path.dedup (Path.sort (s.listed.filter (!store.contains ·))) := by
  rw [Store.missing, documents_of_ofSolution accepted]

theorem mem_missing_iff (accepted : Projects.ofSolution s = .ok ps) : p ∈ store.missing ps ↔ p ∈ store.gaps s := by
  rw [missing_eq store accepted, Path.mem_dedup_sort_iff, Store.mem_gaps_iff]
  constructor
  · intro first
    have absent := (List.mem_filter.mp (List.mem_of_find?_eq_some first)).2
    rw [Bool.not_eq_true'] at absent
    rw [Store.find?_absent absent] at first
    exact ⟨absent, first⟩
  · rintro ⟨absent, first⟩
    rw [Store.find?_absent absent, first]

theorem missing_eq_nil (accepted : Projects.ofSolution s = .ok ps)
    (held : ∀ p ∈ s.listed, store.contains p = true) : store.missing ps = [] := by
  rw [missing_eq store accepted, List.filter_eq_nil_iff.mpr fun p mem => by simp [held p mem]]
  rw [Path.sort_of_sorted .nil, Path.dedup_nil]

end Missing

/-! ## Filling -/

section Filling

variable {store : Store} {disk : Disk} {s : Solution} {ps : Projects} {texts : List (Path × String)}
  (accepted : Projects.ofSolution s = .ok ps) (read : List.Forall₂ disk.Reads (store.missing ps) texts)
include accepted read

theorem record?_filled {p : Path} (none : s.spelling? p = none ∨ store.contains p = true) :
    (store.putAll texts).record? p = store.record? p := by
  refine Store.record?_putAll fun x mem => Bool.eq_false_iff.mpr fun same => ?_
  obtain ⟨absent, first⟩ := Store.mem_gaps_iff.mp ((mem_missing_iff accepted).mp (Disk.mem_of_mem_reads read mem))
  rw [Solution.spelling?_congr s same] at first
  rw [Store.contains_congr _ same] at absent
  rcases none with unlisted | held
  · cases unlisted.symm.trans first
  · cases held.symm.trans absent

theorem get?_filled {p q : Path} (absent : store.contains p = false) (first : s.spelling? p = some q) :
    ∃ text, disk.read q = .ok text ∧
      (store.putAll texts).get? p = some ⟨q, text, store.lastVersion p + 1⟩ ∧
      (store.putAll texts).lastVersion p = store.lastVersion p + 1 := by
  have same := Solution.same_of_spelling? first
  have gap : q ∈ store.missing ps := by
    rw [mem_missing_iff accepted, Store.mem_gaps_iff, Store.contains_congr _ same, Solution.spelling?_congr s same]
    exact ⟨absent, first⟩
  obtain ⟨text, put, here⟩ := Disk.mem_of_reads read gap
  rw [missing_eq store accepted] at read
  obtain ⟨held, version⟩ := Store.putAll_of_mem store (Disk.apart_of_reads read) put
  rw [Store.get?_congr _ same, Store.lastVersion_congr _ same] at held
  rw [Store.lastVersion_congr _ same, Store.lastVersion_congr _ same] at version
  exact ⟨text, here, held, version⟩

theorem filled_of_reads : store.Filled disk s (store.putAll texts) where
  held _ held := record?_filled accepted read (.inr held)
  unlisted _ unlisted := record?_filled accepted read (.inl unlisted)
  missing _ _ absent first := get?_filled accepted read absent first
  newer history later p old new known absent before after := by
    have past : old.version ≤ store.lastVersion p := by
      rw [(Store.Sound.empty.edited history).version before, known]
      exact (Store.LeadsTo.edited _ later).lastVersion_le p
    cases first : s.spelling? p with
    | none =>
      -- What is neither held nor listed is still not held.
      have unchanged := Store.contains_of_record?_eq (record?_filled accepted read (.inl first))
      rw [absent, Store.contains, after] at unchanged
      cases unchanged
    | some q =>
      obtain ⟨text, -, held, -⟩ := get?_filled accepted read absent first
      cases held.symm.trans after
      exact Nat.lt_succ_of_le past

end Filling

theorem contains_of_filled {disk : Disk} {solution : Solution} {s t : Store} (filled : s.Filled disk solution t) :
    ∀ p ∈ solution.listed, t.contains p = true := by
  intro p listed
  cases held : s.contains p with
  | true => rw [Store.contains_of_record?_eq (filled.held p held), held]
  | false =>
    obtain ⟨q, first⟩ := Solution.exists_spelling? listed
    obtain ⟨text, -, there, -⟩ := filled.missing p q held first
    rw [Store.contains, there]
    rfl

/-! ## Callers -/

/-- Nobody who asks for one of the projects is told that a document is missing, whatever happened at the cache before
and whatever happens there meanwhile. -/
def Complete (ps : Projects) (store : Store) : Prop :=
  (∀ history name turns path,
    (Call.among (Desk.run history) ⟨ps, name, store⟩ turns).2.answer? ≠ some (.error (.documentNotFound path))) ∧
  ∀ (run : Runner) config current history name path,
    (compile run ⟨config, current, (Desk.run history).engine⟩ ps store name).1 ≠ .error (.documentNotFound path)

section Complete

variable {s : Solution} {ps : Projects} {store : Store}

theorem not_missing_of_contains (accepted : Projects.ofSolution s = .ok ps)
    (held : ∀ p ∈ s.listed, store.contains p = true) {name : String} {path : Path} :
    ¬Fault ps store name (.documentNotFound path) := by
  intro fault
  cases fault with
  | missing found ordered first =>
    have absent := List.find?_some first
    obtain ⟨p, taken, mem⟩ := List.mem_flatMap.mp (List.mem_of_find?_eq_some first)
    have listed : path ∈ s.listed := by
      rw [← documents_of_ofSolution accepted]
      exact List.mem_flatMap.mpr ⟨p, (Projects.partial_of_compilationOrder ordered).listed p taken, mem⟩
    rw [held path listed] at absent
    cases absent

theorem complete_of_contains (accepted : Projects.ofSolution s = .ok ps)
    (held : ∀ p ∈ s.listed, store.contains p = true) : Complete ps store := by
  have linked := Projects.linked_of_ofSolution accepted
  have distinct := Projects.distinct_of_ofSolution accepted
  refine ⟨fun history name turns path told => ?_, fun run config current history name path told => ?_⟩
  · cases asked : Request.ofStore ps store name with
    | error failure =>
      rw [(Call.among_fault (t := ⟨ps, name, store⟩) (Desk.run history) asked turns).1] at told
      cases told
      exact not_missing_of_contains accepted held (Request.fault_of_ofStore linked distinct asked)
    | ok q =>
      have proper := Call.proper_among (t := ⟨ps, name, store⟩) (Desk.sound_run history) asked
        (Request.steady_of_ofStore linked distinct asked) turns
      obtain ⟨built, stage⟩ := Call.answer?_eq_some.mp told
      rw [stage] at proper
      cases proper with
      | returned ends => cases ends
  · cases asked : Request.ofStore ps store name with
    | error failure =>
      rw [compile_fault run asked] at told
      cases told
      exact not_missing_of_contains accepted held (Request.fault_of_ofStore linked distinct asked)
    | ok q =>
      have ends := fromBuild_compile (w := ⟨config, current, (Desk.run history).engine⟩) run
        (Desk.sound_run history).engine.built asked (Request.steady_of_ofStore linked distinct asked)
      rw [told] at ends
      cases ends

end Complete

/-! ## Opening -/

section Opening

variable {config : Config} {store : Store} {disk : Disk} {s : Solution} {ps : Projects}

theorem run_opening_of_fault {e : WorkspaceError} (fault : s.Fault e) :
    (opening config disk s).run store = .error e store := by
  rw [opening, Projects.ofSolution_eq_error.mpr fault]
  rfl

/-- A load is all that opening does to a store. -/
theorem opening_of_loads (accepted : Projects.ofSolution s = .ok ps) (loads : config.loadFromDisk = true) :
    (opening config disk s).run store = (Store.loading disk (store.missing ps) >>= fun _ => pure ps).run store := by
  rw [opening, accepted]
  simp only [loads, if_true]
  rfl

theorem run_opening_of_fails (accepted : Projects.ofSolution s = .ok ps) (loads : config.loadFromDisk = true)
    (failing : ∃ p ∈ store.gaps s, disk.fails p = true) :
    ∃ e, (opening config disk s).run store = .error e store ∧ Store.Refuses disk (store.gaps s) e := by
  have gap (p : Path) : p ∈ store.missing ps ↔ p ∈ store.gaps s := mem_missing_iff accepted
  obtain ⟨p, mem, failed⟩ := failing
  obtain ⟨reports, refused, reported⟩ := store.run_loading_of_fails ⟨p, (gap p).mpr mem, failed⟩
  refine ⟨.workspaceLoad reports, ?_, _, reports, rfl, reported, ?_, fun q left => ?_, fun q mem failed => ?_⟩
  · rw [opening_of_loads accepted loads]
    exact Storing.run_bind_error refused _
  · exact (Path.pairwise_dedup_sort _).sublist List.filter_sublist
  · obtain ⟨there, failed⟩ := List.mem_filter.mp left
    exact ⟨(gap q).mp there, failed⟩
  · exact ⟨q, List.mem_filter.mpr ⟨(gap q).mpr mem, failed⟩, q.same_refl⟩

theorem run_opening_of_reads (accepted : Projects.ofSolution s = .ok ps) (loads : config.loadFromDisk = true)
    (fine : ∀ p ∈ store.gaps s, disk.fails p = false) :
    ∃ t, (opening config disk s).run store = .ok ps t ∧ store.Filled disk s t := by
  obtain ⟨texts, loaded, read⟩ :=
    store.run_loading_of_reads fun p mem => fine p ((mem_missing_iff accepted).mp mem)
  refine ⟨_, ?_, filled_of_reads accepted read⟩
  rw [opening_of_loads accepted loads]
  exact Storing.run_bind_ok loaded _

/-- Where all is held there is nothing to load. -/
theorem run_opening_of_contains (accepted : Projects.ofSolution s = .ok ps)
    (held : ∀ p ∈ s.listed, store.contains p = true) : (opening config disk s).run store = .ok ps store := by
  cases loads : config.loadFromDisk with
  | false =>
    rw [opening, accepted]
    simp only [loads]
    rfl
  | true =>
    rw [opening_of_loads accepted loads, missing_eq_nil accepted held]
    rfl

/-- Opening fails just if the projects do not fit together or some gap cannot be filled, and then the store is as it
was. Otherwise each gap is filled, with the text on the disk in one more version, and nothing else changes; as long as
none of the documents is evicted, nobody is told that one is missing, and opening again changes nothing. -/
theorem opening_fills_gaps (w : Workspace) (disk : Disk) (s : Solution) (loads : w.config.loadFromDisk = true) :
    (w.openSolution disk s =
      match (opening w.config disk s).run w.store with
      | .ok ps t => .ok (ps, { w with store := t })
      | .error e _ => .error e) ∧
    ((∃ e t, (opening w.config disk s).run w.store = .error e t) ↔
      (∃ e, s.Fault e) ∨ ∃ p ∈ w.store.gaps s, disk.fails p = true) ∧
    (disk.ByPlace → ((∃ p ∈ w.store.gaps s, disk.fails p = true) ↔
      ∃ p ∈ s.listed, w.store.contains p = false ∧ disk.fails p = true)) ∧
    (∀ e t, (opening w.config disk s).run w.store = .error e t →
      t = w.store ∧ (s.Fault e ∨ s.WellFormed ∧ Store.Refuses disk (w.store.gaps s) e)) ∧
    ∀ ps t, (opening w.config disk s).run w.store = .ok ps t →
      Projects.ofSolution s = .ok ps ∧ w.store.Filled disk s t ∧
      ∀ edits, Store.Spares s.listed edits →
        Complete ps (t.edited edits) ∧
        ∀ (disk' : Disk), (opening w.config disk' s).run (t.edited edits) = .ok ps (t.edited edits) := by
  refine ⟨?_, ?_⟩
  · unfold openSolution
    cases (opening w.config disk s).run w.store <;> rfl
  cases accepted : Projects.ofSolution s with
  | error e =>
    have fault := Projects.ofSolution_eq_error.mp accepted
    rw [run_opening_of_fault fault]
    refine ⟨⟨fun _ => .inl ⟨e, fault⟩, fun _ => ⟨e, _, rfl⟩⟩, Store.exists_gap_fails_iff, ?_, nofun⟩
    rintro _ _ ⟨⟩
    exact ⟨rfl, .inl fault⟩
  | ok ps =>
    have whole := Projects.wellFormed_of_ofSolution accepted
    by_cases failing : ∃ p ∈ w.store.gaps s, disk.fails p = true
    · obtain ⟨e, refused, refuses⟩ := run_opening_of_fails accepted loads failing
      rw [refused]
      refine ⟨⟨fun _ => .inr failing, fun _ => ⟨e, _, rfl⟩⟩, Store.exists_gap_fails_iff, ?_, nofun⟩
      rintro _ _ ⟨⟩
      exact ⟨rfl, .inr ⟨whole, refuses⟩⟩
    · have fine : ∀ p ∈ w.store.gaps s, disk.fails p = false := fun p mem =>
        Bool.eq_false_iff.mpr fun failed => failing ⟨p, mem, failed⟩
      obtain ⟨t, done, filled⟩ := run_opening_of_reads accepted loads fine
      rw [done]
      refine ⟨⟨nofun, ?_⟩, Store.exists_gap_fails_iff, nofun, ?_⟩
      · rintro (fault | failed)
        · exact absurd fault (not_fault_of_ofSolution accepted)
        · exact absurd failed failing
      · rintro _ _ ⟨⟩
        refine ⟨rfl, filled, fun edits spares => ?_⟩
        have held : ∀ p ∈ s.listed, (t.edited edits).contains p = true := fun p mem =>
          Store.contains_edited (contains_of_filled filled p mem) fun q evicted => spares q evicted p mem
        exact ⟨complete_of_contains accepted held, fun disk' => run_opening_of_contains accepted held⟩

/-- One of the files on the shelf is held in an older version, the other one was evicted. -/
def half : Workspace where
  config := { loadFromDisk := true }
  store := Store.begun.put ⟨"b.cs"⟩ "class X;"

theorem opening_fills_gaps_half :
    half.config.loadFromDisk = true ∧ Store.shelf.ByPlace ∧
    (∃ t, (opening half.config Store.shelf Store.shelved).run half.store = .ok ⟨Store.shelved.projects⟩ t ∧
      half.store.Filled Store.shelf Store.shelved t ∧
      t.get? ⟨"src/a.cs"⟩ = some ⟨⟨"src/./a.cs"⟩, "class A;", 2⟩ ∧
      t.get? ⟨"b.cs"⟩ = some ⟨⟨"b.cs"⟩, "class X;", 1⟩ ∧
      Complete ⟨Store.shelved.projects⟩ (t.edited [.put ⟨"b.cs"⟩ "class Y;", .evict ⟨"c.cs"⟩])) ∧
    ∃ e, (opening half.config Store.shelf Store.lacking).run half.store = .error e half.store ∧
      Store.Refuses Store.shelf (half.store.gaps Store.lacking) e := by
  have accepted : Projects.ofSolution Store.shelved = .ok ⟨Store.shelved.projects⟩ := by decide +kernel
  have lacking : Projects.ofSolution Store.lacking = .ok ⟨Store.lacking.projects⟩ := by decide +kernel
  refine ⟨rfl, Store.byPlace_shelf, ?_, ?_⟩
  · obtain ⟨-, fails, -, -, fills⟩ := opening_fills_gaps half Store.shelf Store.shelved rfl
    have gaps : half.store.gaps Store.shelved = [⟨"src/./a.cs"⟩] := by decide +kernel
    have readable : Store.shelf.fails ⟨"src/./a.cs"⟩ = false := by decide +kernel
    cases done : (opening half.config Store.shelf Store.shelved).run half.store with
    | error e t =>
      rcases fails.mp ⟨e, t, done⟩ with fault | failing
      · exact absurd fault (not_fault_of_ofSolution accepted)
      · simp [gaps, readable] at failing
    | ok ps t =>
      obtain ⟨same, filled, after⟩ := fills ps t done
      cases accepted.symm.trans same
      obtain ⟨text, here, put, -⟩ := filled.missing ⟨"src/a.cs"⟩ ⟨"src/./a.cs"⟩ (by decide +kernel) (by decide +kernel)
      have held := filled.held ⟨"b.cs"⟩ (by decide +kernel)
      have spares : Store.Spares Store.shelved.listed [.put ⟨"b.cs"⟩ "class Y;", .evict ⟨"c.cs"⟩] := by
        intro q evicted
        obtain rfl : q = ⟨"c.cs"⟩ := by simpa using evicted
        decide +kernel
      refine ⟨t, rfl, filled, ?_, ?_, (after _ spares).1⟩
      · rw [put]
        cases here
        decide +kernel
      · rw [Store.get?, held]
        decide +kernel
  · obtain ⟨-, fails, -, refused, -⟩ := opening_fills_gaps half Store.shelf Store.lacking rfl
    obtain ⟨e, t, done⟩ := fails.mpr (.inr ⟨⟨"c.cs"⟩, by decide +kernel, by decide +kernel⟩)
    obtain ⟨rfl, fault | ⟨-, refuses⟩⟩ := refused e t done
    · exact absurd ⟨e, fault⟩ (not_fault_of_ofSolution lacking)
    · exact ⟨e, done, refuses⟩

end Opening

end Workspace
end CodeWorkspace
