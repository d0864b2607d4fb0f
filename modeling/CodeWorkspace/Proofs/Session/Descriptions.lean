import CodeWorkspace.Proofs.Session.Soundness
import CodeWorkspace.Toolchain.Outline

/-! What the store that a caller captured from tells of the snapshots it is given. A digest tells how the paths of
documents read, which is not always what they are. It tells the paths too as long as no two that read alike are
written, and in any case among callers of one solution over one store, as the project then tells the places. -/
namespace CodeWorkspace

variable {tools : Toolchain → Prop} {hashed : List Job.Inputs}

/-- Among all that is hashed, digests tell the paths of documents, though only what these read as is hashed. -/
def Job.Inputs.PathsTell (hashed : List Inputs) : Prop :=
  ∀ i ∈ hashed, ∀ j ∈ hashed, i.digest = j.digest → i.documents.map (·.stamp) = j.documents.map (·.stamp)

/-- No two of the paths read alike. -/
def Path.Apart (paths : List Path) : Prop := ∀ p ∈ paths, ∀ q ∈ paths, p.text = q.text → p = q

instance (paths : List Path) : Decidable (Path.Apart paths) :=
  inferInstanceAs (Decidable (∀ p ∈ paths, ∀ q ∈ paths, p.text = q.text → p = q))

/-- Paths that are texts are told apart. -/
theorem Path.apart_of_isText {paths : List Path} (texts : ∀ p ∈ paths, p.isText = true) : Apart paths :=
  fun p hp q hq => eq_of_text (texts p hp) (texts q hq)

/-! ## Callers -/

namespace Call.Sound

variable {e : Engine} {c : Call} {i j : Job.Inputs} {s : Snapshot}

/-- Whatever has the digest of something that a caller looked up is of the same project, with snapshots of what this
references, all of which the caller looked up too. -/
theorem drawn_of_digest (h : c.Sound tools hashed e) (free : Job.Inputs.CollisionFree hashed)
    (asked : j.Asked tools hashed) (looked : i ∈ c.asked) (same : j.digest = i.digest) :
    ∃ p, Request.Drawn c.projects c.captured p i ∧ j.project = p.name ∧
      j.references.map (·.project) = p.references ∧ ∀ r ∈ j.references, Known c.asked r := by
  have wants := h.asked i looked
  obtain ⟨order, -, p, -, drawn⟩ := wants.drawn
  obtain ⟨project, -, digests⟩ := free.fields asked.mem wants.asked.mem same
  have one : ∀ r ∈ j.references, ∀ r' ∈ i.references, r.digest = r'.digest → r.project = r'.project :=
    fun r hr r' hr' => (asked.references r hr).project_eq free (wants.asked.references r' hr')
  refine ⟨p, drawn, project.trans drawn.name, (map_eq_map_of_tells one digests).trans drawn.references,
    fun r hr => ?_⟩
  have mem : r.digest ∈ i.references.map (·.digest) := digests ▸ List.mem_map_of_mem hr
  obtain ⟨r', hr', digest⟩ := List.mem_map.mp mem
  obtain ⟨x, hx, name, digest'⟩ := wants.known r' hr'
  exact ⟨x, hx, (one r hr r' hr' digest.symm).trans name, digest.symm.trans digest'⟩

section Paths

variable (h : c.Sound tools hashed e) (free : Job.Inputs.CollisionFree hashed) (tell : Job.Inputs.PathsTell hashed)
include h free tell

private theorem describes_of_references (asked : j.Asked tools hashed) (looked : i ∈ c.asked)
    (same : j.digest = i.digest)
    (below : ∀ r ∈ j.references, Known c.asked r → r.origin.Describes c.projects c.captured) :
    j.origin.Describes c.projects c.captured := by
  obtain ⟨p, drawn, name, names, known⟩ := h.drawn_of_digest free asked looked same
  refine .project drawn.listed name drawn.captured (tell j asked.mem i (h.asked i looked).asked.mem same) ?_ ?_
  · rw [← names]
    simp [Job.Inputs.origin]
  · simp only [Job.Inputs.origin, List.forall_mem_map]
    exact fun r hr => below r hr (known r hr)

/-- What a caller knows is described by the store that it captured from. -/
theorem describes_of_known (genuine : s.Genuine tools hashed) (known : Known c.asked s) :
    s.origin.Describes c.projects c.captured := by
  induction genuine with
  | run _ asked made references ih =>
    obtain ⟨i, looked, -, same⟩ := known
    rw [Job.digest_of_run made] at same
    rw [Job.origin_of_run made]
    exact h.describes_of_references free tell ⟨asked, references⟩ looked same ih

theorem describes_of_digest (asked : j.Asked tools hashed) (looked : i ∈ c.asked) (same : j.digest = i.digest) :
    j.origin.Describes c.projects c.captured :=
  h.describes_of_references free tell asked looked same
    fun r hr => h.describes_of_known free tell (asked.references r hr)

theorem describes (looked : i ∈ c.asked) : i.origin.Describes c.projects c.captured :=
  h.describes_of_digest free tell (h.asked i looked).asked looked rfl

end Paths
end Call.Sound

namespace Session

variable {w : Session} {event : Event}

/-! ## One solution -/

namespace Sound

/-- Captures are states of one store, so that one of any two leads to the other. -/
theorem comparable (h : w.Sound tools) {c c' : Call} (hc : c ∈ w.calls) (hc' : c' ∈ w.calls) :
    c.captured.LeadsTo c'.captured ∨ c'.captured.LeadsTo c.captured :=
  List.Pairwise.forall_of_forall_of_flip (R := fun s t : Store => s.LeadsTo t ∨ t.LeadsTo s)
    (fun s _ => .inl (.refl s)) (h.history.imp .inl) (h.history.imp .inr)
    (List.mem_map_of_mem hc) (List.mem_map_of_mem hc')

/-- Where all callers have the same projects, the names of projects tell the places of documents. -/
theorem pathsTell (h : w.Sound tools) (free : Job.Inputs.CollisionFree w.hashed) {ps : Projects}
    (one : ∀ c ∈ w.calls, c.projects = ps) : Job.Inputs.PathsTell w.hashed := by
  intro i hi j hj same
  obtain ⟨c, hc, wants⟩ := h.fit.wanted hi
  obtain ⟨c', hc', wants'⟩ := h.fit.wanted hj
  obtain ⟨project, imprints, -⟩ := free.fields hi hj same
  obtain ⟨-, -, p, -, drawn⟩ := wants.drawn
  obtain ⟨-, -, p', -, drawn'⟩ := wants'.drawn
  have distinct := (h.calls c hc).distinct
  have listed := drawn.listed
  have listed' := drawn'.listed
  rw [one c hc] at distinct listed
  rw [one c' hc'] at listed'
  obtain rfl : p = p' := distinct p listed p' listed' (by rw [← drawn.name, ← drawn'.name, project])
  have versions : i.documents.map (·.version) = j.documents.map (·.version) := by
    have := congrArg (List.map Prod.snd) imprints
    rwa [List.map_map, List.map_map] at this
  rcases h.comparable hc hc' with earlier | later
  · rw [earlier.capture_eq (h.calls c hc).store drawn.captured drawn'.captured versions]
  · rw [later.capture_eq (h.calls c' hc').store drawn'.captured drawn.captured versions.symm]

end Sound

/-! ## Paths that do not read alike -/

def Event.path? : Event → Option Path
  | .put path _ => some path
  | _ => none

/-- The paths under which documents are put. -/
def written (events : List Event) : List Path := events.filterMap (·.path?)

/-- All that is held, or was held when somebody captured it, has one of these paths. -/
structure Stocked (paths : List Path) (w : Session) : Prop where
  store : ∀ place d, w.store.get? place = some d → d.path ∈ paths
  captured : ∀ c ∈ w.calls, ∀ place d, c.captured.get? place = some d → d.path ∈ paths

namespace Stocked

variable {paths : List Path}

theorem empty (paths : List Path) : Stocked paths {} where
  store _ _ held := by cases held
  captured := by simp

theorem mono {more : List Path} (h : w.Stocked paths) (sub : ∀ path ∈ paths, path ∈ more) : w.Stocked more where
  store place d held := sub _ (h.store place d held)
  captured c hc place d held := sub _ (h.captured c hc place d held)

theorem after (h : w.Stocked paths) (mem : ∀ path, event.path? = some path → path ∈ paths) :
    (w.after event).Stocked paths := by
  refine ⟨fun place d held => ?_, fun c hc => ?_⟩
  · cases event with
    | put path text =>
      rw [Session.after, Store.get?_put] at held
      split at held
      · rw [← Option.some.inj held]
        exact mem path rfl
      · exact h.store place d held
    | evict path =>
      rw [Session.after, Store.get?_evict] at held
      split at held
      · cases held
      · exact h.store place d held
    | lookup | wake | giveUp =>
      rw [Session.after, store_move] at held
      exact h.store place d held
    | call solution name =>
      unfold Session.after enter at held
      dsimp only at held
      split at held <;> exact h.store place d held
    | invalidate | clear | finish => exact h.store place d held
  · rcases mem_captures_after w event c hc with here | ⟨old, hold, same⟩
    · rw [here]
      exact h.store
    · rw [← same]
      exact h.captured old hold

/-- What is hashed comes from the store. -/
theorem path_mem (h : w.Stocked paths) (fit : w.Fit tools) : ∀ i ∈ w.hashed, ∀ d ∈ i.documents, d.path ∈ paths := by
  intro i hi d hd
  obtain ⟨c, hc, wants⟩ := fit.wanted hi
  obtain ⟨place, held⟩ := wants.held d hd
  exact h.captured c hc place d held

theorem pathsTell (h : w.Stocked paths) (fit : w.Fit tools) (apart : Path.Apart paths)
    (free : Job.Inputs.CollisionFree w.hashed) : Job.Inputs.PathsTell w.hashed := by
  intro i hi j hj same
  obtain ⟨-, imprints, -⟩ := free.fields hi hj same
  refine map_eq_map_of_tells (fun d hd d' hd' alike => ?_) imprints
  obtain ⟨text, version⟩ := Prod.mk.inj alike
  have path := apart _ (h.path_mem fit i hi d hd) _ (h.path_mem fit j hj d' hd') text
  rw [Document.stamp, Document.stamp, path, version]

end Stocked

theorem stocked_run (events : List Event) : (run events).Stocked (written events) := by
  suffices ∀ (rest : List Event) (w : Session), (∀ event ∈ rest, event ∈ events) → Stocked (written events) w →
      Stocked (written events) (rest.foldl after w) from this events {} (fun _ => id) (.empty _)
  intro rest
  induction rest with
  | nil => exact fun _ _ => id
  | cons event rest ih =>
    intro w sub h
    refine ih _ (fun e he => sub e (List.mem_cons_of_mem _ he)) (h.after fun path here => ?_)
    exact List.mem_filterMap.mpr ⟨event, sub event List.mem_cons_self, here⟩

end Session

/-! ## Two paths that read alike -/

namespace Solution

/-- A project of one document. -/
def sole (path : Path) : Project := ⟨"Lib", [path], []⟩

def listing (path : Path) : Solution := ⟨none, [sole path]⟩

theorem ofSolution_listing (path : Path) : Projects.ofSolution (listing path) = .ok ⟨[sole path]⟩ := rfl

theorem compilationOrder_listing (path : Path) :
    Projects.compilationOrder ⟨[sole path]⟩ "Lib" = .ok [sole path] := by
  have found : Projects.find? ⟨[sole path]⟩ "Lib" = some (sole path) := by
    simp [Projects.find?, Projects.findIn, sole]
  have none : (sole path).references = [] := rfl
  rw [Projects.compilationOrder, Projects.extend_cons found, none]
  simp only [Projects.extend_nil]
  rfl

end Solution

/-- A byte that no text begins with. -/
def Path.odd : Path := ⟨⟨[0xff]⟩⟩

/-- Another one. Both read as the sign for what is no text. -/
def Path.other : Path := ⟨⟨[0xfe]⟩⟩

namespace Session

/-- The one document has a block that is never closed, but the other one is compiled first. -/
def lookalike : List Event :=
  [.put .odd "class A \x7b", .put .other "class A;", .call (.listing .other) "Lib", .lookup 0, .finish .outline 1,
    .wake 0, .call (.listing .odd) "Lib", .lookup 1]

/-- What is held when the project of the one document is asked for. -/
def lookalikes : Store := (Store.put {} .odd "class A \x7b").put .other "class A;"

theorem uses_lookalike : ∀ event ∈ lookalike, event.Uses (· = .outline) := by simp [lookalike, Event.Uses]

theorem collisionFree_lookalike : Job.Inputs.CollisionFree (run lookalike).hashed := by
  simp only [run, lookalike, List.foldl,
    after_call (Solution.ofSolution_listing _) (Solution.compilationOrder_listing _)]
  decide +kernel

theorem answered_lookalike : ∃ c, (run lookalike).calls[1]? = some c ∧ c.projects = ⟨[Solution.sole .odd]⟩ ∧
    c.name = "Lib" ∧ c.captured = lookalikes ∧ ∃ s, c.answer? = some (.ok s) := by
  have told : ((run lookalike).calls[1]?.any fun c => c.projects = ⟨[Solution.sole .odd]⟩ ∧ c.name = "Lib" ∧
      c.captured = lookalikes ∧ c.answer?.any (·.isOk) = true) = true := by
    simp only [run, lookalike, List.foldl,
      after_call (Solution.ofSolution_listing _) (Solution.compilationOrder_listing _)]
    decide +kernel
  obtain ⟨c, found, facts⟩ := (Option.any_eq_true ..).mp told
  obtain ⟨projects, name, captured, isOk⟩ := of_decide_eq_true facts
  exact ⟨c, found, projects, name, captured, Call.exists_of_isOk isOk⟩

end Session
end CodeWorkspace
