import CodeWorkspace.Proofs.Engine.Fresh
import CodeWorkspace.Proofs.Session.Descriptions
import CodeWorkspace.Proofs.Solution.Closure

/-! When a snapshot is current. It looks at its own documents and those of its references; hashing the solution
anew, over what the store holds by then, comes to the same answer. Once a snapshot is out of date it stays so. -/
namespace CodeWorkspace

/-! ## Hashing anew -/

/-- What a toolchain that finds nothing makes of inputs. Its digest is as good as any other's. -/
def Job.Inputs.bare (i : Inputs) : Snapshot :=
  Job.snapshot ⟨i, 0⟩ ⟨i.documents.map (compiled · ⟨⟨[], 0⟩, []⟩), ⟨i.project, []⟩, []⟩

theorem Job.run_blank (i : Inputs) : Job.run .blank ⟨i, 0⟩ = .ok i.bare := by
  have parsed (documents : List Document) :
      parseAll .blank documents = .ok ⟨documents.map (compiled · ⟨⟨[], 0⟩, []⟩), []⟩ := by
    induction documents with
    | nil => rfl
    | cons d rest ih =>
      rw [parseAll, ih]
      rfl
  simp only [run, Inputs.yield, parsed]
  rfl

namespace Request

/-- What is hashed for these projects, one after another, where none of them is known. -/
def rehash (name : String) (built : List (String × Snapshot)) :
    List (Project × List Document) → List Job.Inputs
  | [] => []
  | (p, documents) :: rest =>
    match demand ⟨name, (p, documents) :: rest, built⟩ with
    | .finished _ => []
    | .needs i => i :: rehash name ((p.name, i.bare) :: built) rest

end Request

/-- What is hashed for a project and all that it references over what a store holds. -/
def rehashed (ps : Projects) (store : Store) (name : String) : List Job.Inputs :=
  match Request.ofStore ps store name with
  | .error _ => []
  | .ok q => Request.rehash q.name q.built q.remaining

/-- The digest that this comes to. -/
def redigest (ps : Projects) (store : Store) (name : String) : Except WorkspaceError Digest :=
  (compileFresh .blank ps store name).map (·.digest)

theorem redigest_eq_ok {ps : Projects} {store : Store} {name : String} {digest : Digest} :
    redigest ps store name = .ok digest ↔
      ∃ s, compileFresh .blank ps store name = .ok s ∧ s.digest = digest := by
  unfold redigest
  cases compileFresh .blank ps store name with
  | error => simp [Except.map]
  | ok s => simp [Except.map]

namespace Request

variable {ps : Projects} {store : Store} {hashed : List Job.Inputs} {name : String}
  {built : List (String × Snapshot)} {remaining : List (Project × List Document)}

/-- What is known of a snapshot that came of hashing anew. -/
structure Anew (ps : Projects) (store : Store) (hashed : List Job.Inputs) (s : Snapshot) : Prop where
  genuine : s.Genuine (fun _ => True) hashed
  described : s.origin.Describes ps store

/-- Whatever is compiled without a cache and a toolchain is described by the store. -/
theorem anew_of_compile {before : List Project} {root : Project} {s : Snapshot}
    (fits : Request.Fits ps store (Anew ps store hashed) (before ++ [root]) ⟨name, remaining, built⟩)
    (mem : ∀ i ∈ rehash name built remaining, i ∈ hashed)
    (compiled : compile .blank ⟨name, remaining, built⟩ = .ok s) :
    s.project = root.name ∧ Anew ps store hashed s := by
  induction remaining generalizing built with
  | nil =>
    cases built with
    | nil =>
      have names := fits.names
      simp at names
    | cons x rest =>
      have names := fits.names
      rw [compile_finished (show Request.demand ⟨name, [], x :: rest⟩ = .finished (.ok x.2) from rfl)] at compiled
      cases compiled
      obtain ⟨project, anew⟩ := fits.built x List.mem_cons_self
      simp only [List.map_cons, List.reverse_cons, List.map_nil, List.append_nil, List.map_append] at names
      have last := List.append_inj_right' names rfl
      exact ⟨by rw [project]; exact List.singleton_inj.mp last, anew⟩
  | cons x rest ih =>
    obtain ⟨p, documents⟩ := x
    rw [rehash] at mem
    split at mem
    · next result ends =>
      rw [compile_finished ends] at compiled
      subst compiled
      obtain ⟨none, -⟩ := demand_eq_finished_ok ends
      cases none
    · next i needs =>
      rw [compile_needs needs, Job.run_blank] at compiled
      rw [List.forall_mem_cons] at mem
      have genuine : i.bare.Genuine (fun _ => True) hashed :=
        .run trivial mem.1 (Job.run_blank i) fun r hr => (fits.good_of_needs needs r hr).genuine
      have described : i.bare.origin.Describes ps store := by
        obtain ⟨p, -, drawn⟩ := fits.drawn needs
        rw [Job.origin_of_run (Job.run_blank i)]
        exact drawn.describes fun r hr => (fits.good_of_needs needs r hr).described
      exact ih (fits.advance needs rfl ⟨genuine, described⟩) mem.2 compiled

/-- Where each project comes behind all that it references, nothing stands in the way. -/
theorem exists_compile {before : List Project} (founded : Projects.Founded before (remaining.map (·.1)))
    (known : ∀ p ∈ before, ∃ s, (p.name, s) ∈ built) (some : before ++ remaining.map (·.1) ≠ []) :
    ∃ s, compile .blank ⟨name, remaining, built⟩ = .ok s := by
  induction remaining generalizing before built with
  | nil =>
    obtain ⟨p, hp⟩ := List.exists_mem_of_ne_nil _ some
    rw [List.map_nil, List.append_nil] at hp
    obtain ⟨s, hs⟩ := known p hp
    cases built with
    | nil => cases hs
    | cons x rest => exact ⟨x.2, compile_finished rfl⟩
  | cons x rest ih =>
    obtain ⟨p, documents⟩ := x
    obtain ⟨referenced, founded⟩ := founded
    have found : ∃ references,
        Request.references ⟨name, (p, documents) :: rest, built⟩ p.references = .ok references := by
      apply exists_references
      intro reference mem
      obtain ⟨q, hq, same⟩ := Projects.isNamed_iff.mp (referenced reference mem)
      obtain ⟨s, hs⟩ := known q hq
      simp only [snapshot?, Option.isSome_map, List.find?_isSome]
      exact ⟨_, hs, by simpa using same⟩
    obtain ⟨references, found⟩ := found
    have needs : demand ⟨name, (p, documents) :: rest, built⟩ = .needs ⟨p.name, documents, references⟩ := by
      simp only [demand, found]
    rw [compile_needs needs, Job.run_blank]
    refine ih founded (fun q hq => ?_) (by simp)
    rcases List.mem_append.mp hq with hq | hq
    · obtain ⟨s, hs⟩ := known q hq
      exact ⟨s, List.mem_cons_of_mem _ hs⟩
    · rw [List.mem_singleton.mp hq]
      exact ⟨_, List.mem_cons_self⟩

theorem exists_captureAll {order : List Project}
    (held : ∀ p ∈ order, ∃ documents, store.capture p.documents = .ok documents) :
    ∃ all, captureAll store order = .ok all := by
  induction order with
  | nil => exact ⟨[], rfl⟩
  | cons p rest ih =>
    rw [List.forall_mem_cons] at held
    obtain ⟨documents, captured⟩ := held.1
    obtain ⟨more, captured'⟩ := ih held.2
    exact ⟨(p, documents) :: more, by rw [captureAll, captured, captured']⟩

end Request

section Fresh

variable {ps : Projects} {store : Store} {hashed : List Job.Inputs} {name : String} {before : List Project}
  {root : Project}

theorem anew_of_compileFresh {s : Snapshot} (ordered : ps.compilationOrder name = .ok (before ++ [root]))
    (mem : ∀ i ∈ rehashed ps store name, i ∈ hashed) (compiled : compileFresh .blank ps store name = .ok s) :
    s.project = root.name ∧ Request.Anew ps store hashed s := by
  unfold compileFresh at compiled
  unfold rehashed at mem
  split at compiled
  · cases compiled
  · next q asked =>
    rw [asked] at mem
    obtain ⟨order, ordered', -, fits⟩ := Request.ofStore_eq_ok asked
    cases ordered.symm.trans ordered'
    exact Request.anew_of_compile fits mem compiled

theorem exists_compileFresh (linked : ps.Linked) (distinct : ps.Distinct) {order : List Project}
    (ordered : ps.compilationOrder name = .ok order) (some : order ≠ [])
    (held : ∀ p ∈ order, ∃ documents, store.capture p.documents = .ok documents) :
    ∃ s, compileFresh .blank ps store name = .ok s := by
  obtain ⟨all, captured⟩ := Request.exists_captureAll held
  obtain ⟨projects, -⟩ := Request.captureAll_eq_ok captured
  have founded := Projects.founded_of_compilationOrder linked distinct ordered
  rw [← projects] at founded some
  simp only [compileFresh, Request.ofStore, ordered, captured]
  exact Request.exists_compile founded (by simp) (by simpa using some)

end Fresh

/-! ## Descriptions of what is referenced -/

theorem Origin.Describes.capture {ps : Projects} {store : Store} {o : Origin} (distinct : ps.Distinct)
    (h : o.Describes ps store) {p q : Project} (listed : p ∈ ps.all) (name : o.project = p.name)
    (way : ps.Reaches p q) : ∃ documents, store.capture q.documents = .ok documents := by
  induction way using Relation.ReflTransGen.head_induction_on generalizing o with
  | refl =>
    obtain ⟨listed', name', captured, -⟩ := h
    cases distinct _ listed _ listed' (by rw [← name, name'])
    exact ⟨_, captured⟩
  | head step _ ih =>
    obtain ⟨listed', name', -, -, names, references⟩ := h
    cases distinct _ listed _ listed' (by rw [← name, name'])
    obtain ⟨target, mem⟩ := step
    rw [← names] at mem
    obtain ⟨r, hr, same⟩ := List.mem_map.mp mem
    exact ih (references r hr) target same

/-- A snapshot is current as long as the store describes it. -/
theorem Snapshot.isCurrent_iff_describes {ps : Projects} {store t : Store} {s : Snapshot}
    (described : s.origin.Describes ps store) (sound : store.Sound) (leads : store.LeadsTo t) (ht : t.Sound) :
    s.isCurrent t = true ↔ s.origin.Describes ps t := by
  rw [isCurrent_iff]
  exact ⟨fun current => described.later leads sound current, fun h => h.version? ht⟩

/-- Looking at documents and hashing anew decide alike. -/
theorem Snapshot.describes_iff_redigest {ps : Projects} {store t : Store} {name : String} {before : List Project}
    {root : Project} {hashed : List Job.Inputs} {s : Snapshot} (described : s.origin.Describes ps store)
    (sound : store.Sound) (leads : store.LeadsTo t) (linked : ps.Linked) (distinct : ps.Distinct)
    (ordered : ps.compilationOrder name = .ok (before ++ [root])) (found : ps.find? name = some root)
    (project : s.project = root.name) (genuine : s.Genuine (fun _ => True) hashed)
    (free : Job.Inputs.CollisionFree (hashed ++ rehashed ps t name)) :
    s.origin.Describes ps t ↔
      (∀ p ∈ before ++ [root], ∀ path ∈ p.documents, t.contains path = true) ∧
        redigest ps t name = .ok s.digest := by
  have anew {fresh : Snapshot} (compiled : compileFresh .blank ps t name = .ok fresh) :
      fresh.project = root.name ∧ Request.Anew ps t (hashed ++ rehashed ps t name) fresh :=
    anew_of_compileFresh ordered (fun _ => List.mem_append_right _) compiled
  have old : s.Genuine (fun _ => True) (hashed ++ rehashed ps t name) :=
    genuine.mono fun _ => List.mem_append_left _
  constructor
  · intro described
    have held : ∀ p ∈ before ++ [root], ∃ documents, t.capture p.documents = .ok documents := by
      intro p hp
      refine described.capture distinct (Projects.mem_of_find? found) ?_
        (Projects.reaches_of_compilationOrder linked distinct ordered found p hp)
      rw [project_origin, project]
    obtain ⟨fresh, compiled⟩ := exists_compileFresh linked distinct ordered (by simp) held
    obtain ⟨project', genuine', described'⟩ := anew compiled
    have same : fresh.origin = s.origin := by
      apply described'.unique distinct described
      rw [project_origin, project_origin, project', project]
    exact ⟨fun p hp => Store.exists_capture_iff.mp (held p hp),
      redigest_eq_ok.mpr ⟨fresh, compiled, genuine'.digest_eq old (congrArg Origin.reading same)⟩⟩
  · rintro ⟨-, hashed_alike⟩
    obtain ⟨fresh, compiled, digest⟩ := redigest_eq_ok.mp hashed_alike
    obtain ⟨-, genuine', described'⟩ := anew compiled
    rw [described.eq_of_reading distinct described' leads sound (old.reading_eq free genuine' digest.symm)]
    exact described'

/-! ## Sessions -/

namespace Session

/-- Whatever was compiled, the store had come to its versions. -/
theorem Sound.version_le {tools : Toolchain → Prop} {w : Session} (h : w.Sound tools) {s : Snapshot}
    (genuine : s.Genuine tools w.hashed) : ∀ x ∈ s.origin.closure, x.2 ≤ w.store.lastVersion x.1 := by
  induction genuine with
  | run _ asked made _ ih =>
    rw [Job.origin_of_run made]
    refine Origin.forall_mem_closure.mpr ⟨?_, ?_⟩
    · simp only [Job.Inputs.origin, List.forall_mem_map]
      intro d hd
      obtain ⟨c, hc, wants⟩ := h.fit.wanted asked
      obtain ⟨place, held⟩ := wants.held d hd
      have store := (h.calls c hc).store
      calc d.version
        _ = c.captured.lastVersion place := store.version held
        _ = c.captured.lastVersion d.path := (c.captured.lastVersion_congr (store.place held)).symm
        _ ≤ w.store.lastVersion d.path := (h.captured c hc).lastVersion_le d.path
    · simpa only [Job.Inputs.origin, List.forall_mem_map] using ih

/-- What is out of date once a store has come to its versions, stays out of date. -/
theorem isCurrent_of_later {store t u : Store} {s : Snapshot}
    (reached : ∀ x ∈ s.origin.closure, x.2 ≤ store.lastVersion x.1) (leads : store.LeadsTo t)
    (leads' : t.LeadsTo u) (current : s.isCurrent u = true) : s.isCurrent t = true := by
  rw [Snapshot.isCurrent_iff] at current ⊢
  intro x hx
  obtain ⟨d, held, version⟩ := Option.map_eq_some_iff.mp (current x hx)
  have before : d.version ≤ t.lastVersion x.1 := version ▸ Nat.le_trans (reached x hx) (leads.lastVersion_le x.1)
  rw [Store.version?, leads'.held_before held before, Option.map_some, version]

/-- What a caller was given is, whatever is put and evicted later, current if and only if all documents are there
and hashing them anew gives its digest, as long as no two paths are written that read alike; and once it is not current
it is not current any more. -/
theorem isCurrent_iff_redigest (events : List Event) (free : Job.Inputs.CollisionFree (run events).hashed) :
    ∀ c ∈ (run events).calls, ∀ s, c.answer? = some (.ok s) →
      (Path.Apart (written events) → ∃ order, c.projects.compilationOrder c.name = .ok order ∧ ∀ edits,
        Job.Inputs.CollisionFree ((run events).hashed ++
          rehashed c.projects ((run events).store.edited edits) c.name) →
        (s.isCurrent ((run events).store.edited edits) = true ↔
          (∀ p ∈ order, ∀ path ∈ p.documents, ((run events).store.edited edits).contains path = true) ∧
            redigest c.projects ((run events).store.edited edits) c.name = .ok s.digest)) ∧
      ∀ edits more, s.isCurrent ((run events).store.edited edits) = false →
        s.isCurrent ((run events).store.edited (edits ++ more)) = false := by
  intro c hc s answer
  have sound := sound_run (fun event _ => uses_any event) free
  have call := sound.calls c hc
  obtain ⟨solution, checked⟩ := checked_run events c hc
  obtain ⟨built, returned⟩ := Call.answer?_eq_some.mp answer
  obtain ⟨order, given⟩ := call.given returned
  have holds := given.holds
  refine ⟨fun apart => ?_, fun edits more stale => ?_⟩
  · obtain ⟨root, before, found, rfl, project⟩ := given.root
    have tell := (stocked_run events).pathsTell sound.fit apart free
    have described := call.describes_of_known free tell holds.genuine holds.known
    refine ⟨before ++ [root], given.ordered, fun edits free' => ?_⟩
    have leads := (sound.captured c hc).trans (.edited _ edits)
    rw [Snapshot.isCurrent_iff_describes described call.store leads (sound.store.edited edits)]
    exact Snapshot.describes_iff_redigest described call.store leads (Projects.linked_of_ofSolution checked)
      call.distinct given.ordered found project holds.genuine free'
  · rw [Bool.eq_false_iff] at stale ⊢
    intro again
    rw [Store.edited_append] at again
    exact stale (isCurrent_of_later (sound.version_le holds.genuine) (.edited _ edits) (.edited _ more) again)

def settled : List Event :=
  [.put ⟨"lib"⟩ "x", .put ⟨"app"⟩ "y", .call .pair "App", .lookup 0, .finish .blank 1, .wake 0, .lookup 0,
    .finish .blank 2, .wake 0]

/-- A document goes and comes back as it was, but in another version. -/
def reput : List Store.Edit := [.evict ⟨"lib"⟩, .put ⟨"lib"⟩ "x"]

theorem isCurrent_iff_redigest_reput :
    Job.Inputs.CollisionFree (run settled).hashed ∧ Path.Apart (written settled) ∧
      ∃ c ∈ (run settled).calls, ∃ s, c.answer? = some (.ok s) ∧
      Job.Inputs.CollisionFree ((run settled).hashed ++
        rehashed c.projects ((run settled).store.edited reput) c.name) ∧
      s.isCurrent ((run settled).store.edited reput) = false ∧
      (∃ order, c.projects.compilationOrder c.name = .ok order ∧
        (s.isCurrent ((run settled).store.edited reput) = true ↔
          (∀ p ∈ order, ∀ path ∈ p.documents, ((run settled).store.edited reput).contains path = true) ∧
            redigest c.projects ((run settled).store.edited reput) c.name = .ok s.digest)) ∧
      s.isCurrent ((run settled).store.edited (reput ++ [.put ⟨"app"⟩ "z"])) = false := by
  have free : Job.Inputs.CollisionFree (run settled).hashed := by
    simp only [run, settled, List.foldl, after_call Solution.ofSolution_pair Solution.compilationOrder_pair]
    decide +kernel
  have told : ∃ c ∈ (run settled).calls, c.projects = ⟨[Solution.lib, Solution.app]⟩ ∧ c.name = "App" ∧
      (c.answer?.any (·.isOk)) = true ∧
        ((c.answer?.bind (·.toOption)).any (·.isCurrent ((run settled).store.edited reput))) = false := by
    simp only [run, settled, List.foldl, after_call Solution.ofSolution_pair Solution.compilationOrder_pair]
    decide +kernel
  have free' : Job.Inputs.CollisionFree ((run settled).hashed ++
      rehashed ⟨[Solution.lib, Solution.app]⟩ ((run settled).store.edited reput) "App") := by
    simp only [run, settled, List.foldl, after_call Solution.ofSolution_pair Solution.compilationOrder_pair,
      rehashed, Request.ofStore, Solution.compilationOrder_pair]
    decide +kernel
  obtain ⟨c, hc, projects, name, isOk, stale⟩ := told
  obtain ⟨s, answer⟩ := Call.exists_of_isOk isOk
  rw [answer] at stale
  rw [← projects, ← name] at free'
  have apart : Path.Apart (written settled) := by decide +kernel
  obtain ⟨onceApart, lasts⟩ := isCurrent_iff_redigest settled free c hc s answer
  obtain ⟨order, ordered, agrees⟩ := onceApart apart
  exact ⟨free, apart, c, hc, s, answer, free', stale, ⟨order, ordered, agrees reput free'⟩,
    lasts reput [.put ⟨"app"⟩ "z"] stale⟩

/-- The second caller was given what was compiled of the other document. When its own is written that stays current,
though nothing hashes to its digest any more. -/
theorem lookalike_stays_current :
    Job.Inputs.CollisionFree (run lookalike).hashed ∧ ∃ c ∈ (run lookalike).calls, ∃ s, c.answer? = some (.ok s) ∧
      Job.Inputs.CollisionFree ((run lookalike).hashed ++
        rehashed c.projects ((run lookalike).store.edited [.put .odd "class A;"]) c.name) ∧
      s.isCurrent ((run lookalike).store.edited [.put .odd "class A;"]) = true ∧
      redigest c.projects ((run lookalike).store.edited [.put .odd "class A;"]) c.name ≠ .ok s.digest := by
  have told : ∀ c ∈ (run lookalike).calls[1]?, ∀ s ∈ c.answer?.bind (·.toOption),
      s.isCurrent ((run lookalike).store.edited [.put .odd "class A;"]) = true ∧
        redigest ⟨[Solution.sole .odd]⟩ ((run lookalike).store.edited [.put .odd "class A;"]) "Lib" ≠
          .ok s.digest := by
    simp only [run, lookalike, List.foldl,
      after_call (Solution.ofSolution_listing _) (Solution.compilationOrder_listing _), redigest, compileFresh,
      Request.ofStore, Solution.compilationOrder_listing]
    decide +kernel
  have free : Job.Inputs.CollisionFree ((run lookalike).hashed ++
      rehashed ⟨[Solution.sole .odd]⟩ ((run lookalike).store.edited [.put .odd "class A;"]) "Lib") := by
    simp only [run, lookalike, List.foldl,
      after_call (Solution.ofSolution_listing _) (Solution.compilationOrder_listing _), rehashed, Request.ofStore,
      Solution.compilationOrder_listing]
    decide +kernel
  obtain ⟨c, found, projects, name, -, s, answer⟩ := answered_lookalike
  obtain ⟨current, digest⟩ := told c found s (by rw [answer]; rfl)
  rw [← projects, ← name] at free digest
  exact ⟨collisionFree_lookalike, c, List.mem_of_getElem? found, s, answer, free, current, digest⟩

end Session
end CodeWorkspace
