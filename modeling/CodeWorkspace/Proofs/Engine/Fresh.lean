import CodeWorkspace.Proofs.Engine.Soundness
import CodeWorkspace.Proofs.Request
import CodeWorkspace.Proofs.Snapshot.Content

/-! Compiling without a cache. An empty cache with a runner that ends every build at once comes to the same
results, apart from the numbers of builds. -/
namespace CodeWorkspace

namespace Request

/-- Builds one project after another. -/
def compile (tc : Toolchain) (q : Request) : Except WorkspaceError Snapshot :=
  match _h : q.demand with
  | .finished result => result
  | .needs i =>
    match Job.run tc ⟨i, 0⟩ with
    | .error failure => .error failure
    | .ok s => compile tc (q.advance s)
termination_by q.remaining.length
decreasing_by exact remaining_advance_lt _h s

/-- The end of a request that was given this for what it needed. -/
def receive (tc : Toolchain) (q : Request) : Except WorkspaceError Snapshot → Except WorkspaceError Snapshot
  | .error failure => .error failure
  | .ok s => (q.advance s).compile tc

variable {tc : Toolchain} {q : Request} {i : Job.Inputs}

theorem compile_finished {result : Except WorkspaceError Snapshot} (h : q.demand = .finished result) :
    q.compile tc = result := by
  rw [compile]
  split
  · next h' => cases h.symm.trans h'; rfl
  · next h' => cases h.symm.trans h'

theorem compile_needs (h : q.demand = .needs i) : q.compile tc = q.receive tc (Job.run tc ⟨i, 0⟩) := by
  rw [compile]
  split
  · next h' => cases h.symm.trans h'
  · next h' =>
    cases h.symm.trans h'
    cases Job.run tc ⟨i, 0⟩ <;> rfl

/-! ## Numbers do not matter -/

def unnumbered (q : Request) : Request :=
  { q with built := q.built.map fun x => (x.1, x.2.unnumbered) }

theorem unnumbered_advance (q : Request) (s : Snapshot) :
    (q.advance s).unnumbered = q.unnumbered.advance s.unnumbered := by
  obtain ⟨name, remaining, built⟩ := q
  cases remaining <;> rfl

theorem snapshot?_unnumbered (q : Request) (project : String) :
    q.unnumbered.snapshot? project = (q.snapshot? project).map (·.unnumbered) := by
  unfold snapshot? unnumbered
  dsimp only
  rw [List.find?_map, Option.map_map, Option.map_map]
  rfl

theorem references_unnumbered (q : Request) (names : List String) :
    q.unnumbered.references names = (q.references names).map (List.map (·.unnumbered)) := by
  induction names with
  | nil => rfl
  | cons name rest ih =>
    rw [references, references, snapshot?_unnumbered, ih]
    cases q.snapshot? name with
    | none => rfl
    | some s =>
      cases q.references rest <;> rfl

def Demand.unnumbered : Demand → Demand
  | .finished result => .finished (CodeWorkspace.unnumbered result)
  | .needs i => .needs i.unnumbered

theorem demand_unnumbered (q : Request) : q.unnumbered.demand = q.demand.unnumbered := by
  unfold demand
  rcases remaining : q.remaining with _ | ⟨⟨p, documents⟩, rest⟩
  · simp only [unnumbered, remaining]
    cases q.built <;> rfl
  · have same : q.unnumbered.remaining = (p, documents) :: rest := remaining
    simp only [same, references_unnumbered]
    cases q.references p.references <;> rfl

private theorem demand_congr {q q' : Request} (h : q.unnumbered = q'.unnumbered) :
    q.demand.unnumbered = q'.demand.unnumbered := by
  rw [← demand_unnumbered, h, demand_unnumbered]

theorem compile_congr {q q' : Request} (h : q.unnumbered = q'.unnumbered) :
    CodeWorkspace.unnumbered (q.compile tc) = CodeWorkspace.unnumbered (q'.compile tc) := by
  have demands := demand_congr h
  cases needed : q.demand with
  | finished result =>
    cases needed' : q'.demand with
    | finished result' =>
      rw [needed, needed'] at demands
      rw [compile_finished needed, compile_finished needed']
      exact Demand.finished.inj demands
    | needs => rw [needed, needed'] at demands; cases demands
  | needs i =>
    cases needed' : q'.demand with
    | finished => rw [needed, needed'] at demands; cases demands
    | needs i' =>
      rw [needed, needed'] at demands
      have runs : CodeWorkspace.unnumbered (Job.run tc ⟨i, 0⟩) =
          CodeWorkspace.unnumbered (Job.run tc ⟨i', 0⟩) :=
        Job.unnumbered_run_congr tc (Demand.needs.inj demands)
      rw [compile_needs needed, compile_needs needed']
      cases made : Job.run tc ⟨i, 0⟩ with
      | error failure =>
        cases made' : Job.run tc ⟨i', 0⟩ with
        | error => rw [made, made'] at runs; exact runs
        | ok => rw [made, made'] at runs; cases runs
      | ok s =>
        cases made' : Job.run tc ⟨i', 0⟩ with
        | error => rw [made, made'] at runs; cases runs
        | ok s' =>
          rw [made, made'] at runs
          have := remaining_advance_lt needed s
          have alike : s.unnumbered = s'.unnumbered := Except.ok.inj runs
          have further : (q.advance s).unnumbered = (q'.advance s').unnumbered := by
            rw [unnumbered_advance, unnumbered_advance, h, alike]
          exact compile_congr further
termination_by q.remaining.length

theorem receive_congr {result result' : Except WorkspaceError Snapshot}
    (same : CodeWorkspace.unnumbered result = CodeWorkspace.unnumbered result') :
    CodeWorkspace.unnumbered (q.receive tc result) = CodeWorkspace.unnumbered (q.receive tc result') := by
  cases result with
  | error =>
    cases result' with
    | error => exact same
    | ok => cases same
  | ok s =>
    cases result' with
    | error => cases same
    | ok s' =>
      have alike : s.unnumbered = s'.unnumbered := Except.ok.inj same
      apply compile_congr
      rw [unnumbered_advance, unnumbered_advance, alike]

end Request

namespace Engine

/-- A runner with which every build ends at once. -/
def promptly (tc : Toolchain) : Runner := ⟨tc, fun _ _ => true⟩

variable {tc : Toolchain} {e : Engine} {q : Request} {i : Job.Inputs}

theorem settle_start (sound : e.Sound fun _ => True) (idle : e.running = []) (i : Job.Inputs) :
    (e.start i).settle (promptly tc) = (e.start i).finish tc ⟨i, e.cache.nextSequence⟩ := by
  unfold settle
  rw [sound.running_start, idle]
  rfl

theorem proceed_started (needs : q.demand = .needs i)
    (started : e.lookup i = (.inr e.cache.nextSequence, e.start i)) (sound : e.Sound fun _ => True)
    (idle : e.running = []) :
    e.proceed (promptly tc) q =
      match Job.run tc ⟨i, e.cache.nextSequence⟩ with
      | .error failure =>
        (.finished (.error failure), (e.start i).finish tc ⟨i, e.cache.nextSequence⟩)
      | .ok s => ((e.start i).finish tc ⟨i, e.cache.nextSequence⟩).proceed (promptly tc) (q.advance s) := by
  rw [proceed]
  split
  · next h' => cases needs.symm.trans h'
  · next h' =>
    cases needs.symm.trans h'
    rw [started]
    dsimp only
    rw [settle_start sound idle, outcome?_finish, if_pos rfl]
    cases Job.run tc ⟨i, e.cache.nextSequence⟩ <;> rfl

/-- Where nothing that is needed was made yet, all of it is built. -/
theorem proceed_fresh (tc : Toolchain) {e : Engine} {q : Request} (sound : e.Sound fun _ => True)
    (idle : e.running = []) (unmade : ∀ x ∈ q.remaining, e.cache.liveAt (projectKey x.1.name) = none)
    (keys : (q.remaining.map fun x => projectKey x.1.name).Nodup) :
    ∃ result e', e.proceed (promptly tc) q = (.finished result, e') ∧
      unnumbered result = unnumbered (q.compile tc) := by
  cases needed : q.demand with
  | finished result =>
    refine ⟨result, e, ?_, by rw [Request.compile_finished needed]⟩
    rw [proceed]
    split
    · next h => cases needed.symm.trans h; rfl
    · next h => cases needed.symm.trans h
  | needs i =>
    obtain ⟨p, rest, remaining, name, -⟩ := Request.demand_eq_needs needed
    have key : i.key = projectKey p.name := congrArg projectKey name
    rw [remaining] at unmade keys
    rw [List.forall_mem_cons] at unmade
    rw [List.map_cons, List.nodup_cons] at keys
    have way := looked e i
    generalize found : e.lookup i = r at way
    cases way with
    | hit live same =>
      rw [key, unmade.1] at live
      cases live
    | joined missed under =>
      obtain ⟨j, hj, -⟩ := sound.mem_inFlight.mp (Cache.mem_inFlight_of_sequence? under)
      rw [idle] at hj
      cases hj
    | started missed new =>
      -- The build ends before the request goes on, so the engine is idle again.
      have built : unnumbered (Job.run tc ⟨i, e.cache.nextSequence⟩) = unnumbered (Job.run tc ⟨i, 0⟩) :=
        Job.unnumbered_run_congr tc rfl
      have running : (e.start i).running = [⟨i, e.cache.nextSequence⟩] := by
        rw [sound.running_start, idle, List.nil_append]
      rw [proceed_started needed found sound idle, Request.compile_needs needed,
        ← Request.receive_congr built]
      cases made : Job.run tc ⟨i, e.cache.nextSequence⟩ with
      | error => exact ⟨_, _, rfl, rfl⟩
      | ok s =>
        have := Request.remaining_advance_lt needed s
        have left : (q.advance s).remaining = rest := by simp [Request.advance, remaining]
        refine proceed_fresh tc ((sound.start missed new).finish trivial (by simp [running])) ?_ ?_ ?_
        · rw [running_finish, running]
          simp
        · rw [left]
          intro x hx
          rw [Option.eq_none_iff_forall_not_mem]
          intro t live
          rcases Cache.liveAt_of_publish live with live | ⟨-, same, -⟩
          · -- Only the project that was just built is live now, and no other one has its key.
            have := unmade.2 x hx
            rw [show e.cache.liveAt _ = some t from live] at this
            cases this
          · refine keys.1 (List.mem_map.mpr ⟨x, hx, ?_⟩)
            rw [← key]
            exact same.symm
        · rw [left]
          exact keys.2
termination_by q.remaining.length

end Engine

/-- What compiling without a cache comes to. -/
def compileFresh (tc : Toolchain) (ps : Projects) (store : Store) (name : String) :
    Except WorkspaceError Snapshot :=
  match Request.ofStore ps store name with
  | .error failure => .error failure
  | .ok q => q.compile tc

theorem Engine.enter_fresh (tc : Toolchain) {ps : Projects} (distinct : ps.Distinct) (store : Store)
    (name : String) :
    ∃ result e, Engine.enter (promptly tc) {} ps store name = (.finished result, e) ∧
      unnumbered result = unnumbered (compileFresh tc ps store name) := by
  unfold enter compileFresh
  cases asked : Request.ofStore ps store name with
  | error => exact ⟨_, _, rfl, rfl⟩
  | ok q =>
    obtain ⟨order, ordered, built, fits⟩ := @Request.ofStore_eq_ok ps store (fun _ => True) q name asked
    apply proceed_fresh tc .empty rfl (fun _ _ => rfl)
    have names := congrArg (List.map projectKey) fits.names
    rw [built] at names
    have keys := Projects.keys_nodup_of_compilationOrder distinct ordered
    simp only [List.map_nil, List.reverse_nil, List.nil_append, List.map_map] at names
    exact (congrArg List.Nodup names).mpr keys

end CodeWorkspace
