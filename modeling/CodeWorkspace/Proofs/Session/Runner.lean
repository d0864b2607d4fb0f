import CodeWorkspace.Proofs.Session.Alone

/-! How a runner takes a caller as far as it gets. Where nothing else is under way, it only chooses among the
steps that a caller alone may take, so whatever holds of all of these holds of every runner. -/
namespace CodeWorkspace

namespace Engine

variable {e e' : Engine} {i : Job.Inputs} {j : Job} {n : Nat} {s : Snapshot} {run : Runner}

theorem serves_of_lookup (found : e.lookup i = (.inl s, e')) : e.Serves i s e' := by
  have way := looked e i
  rw [found] at way
  cases way with
  | hit live same => exact .hit live same

/-- Where nothing is under way, a lookup that finds nothing live starts a build. -/
theorem Sound.started_of_lookup (sound : e.Sound fun _ => True) (idle : e.running = [])
    (found : e.lookup i = (.inr n, e')) :
    n = e.cache.nextSequence ∧ e' = e.start i ∧ ∀ s, e.cache.liveAt i.key = some s → s.digest ≠ i.digest := by
  have way := looked e i
  rw [found] at way
  cases way with
  | joined missed under =>
    rw [sound.sequence?_idle idle] at under
    cases under
  | started missed => exact ⟨rfl, rfl, missed⟩

theorem settle_busy (run : Runner) (busy : e.running = [j]) :
    e.settle run = if run.ready [j] j then e.finish run.toolchain j else e := by
  unfold settle
  rw [busy]
  by_cases ready : run.ready [j] j <;> simp [ready]

theorem settle_unended (busy : e.running = [j]) (unended : (e.settle run).outcome? j.sequence = none) :
    e.settle run = e := by
  rw [settle_busy run busy] at unended ⊢
  split at unended
  · rw [outcome?_finish, if_pos rfl] at unended
    cases unended
  · next unready => rw [if_neg unready]

theorem settle_ended {result : Except WorkspaceError Snapshot} (busy : e.running = [j])
    (ended : (e.settle run).outcome? j.sequence = some result) :
    e.settle run = e.finish run.toolchain j ∧ j.run run.toolchain = result := by
  rw [settle_busy run busy] at ended ⊢
  split at ended
  · next ready =>
    rw [outcome?_finish, if_pos rfl] at ended
    rw [if_pos ready]
    exact ⟨rfl, Option.some.inj ended⟩
  · have running : j ∈ e.running := by rw [busy]; exact List.mem_singleton_self j
    rw [(mem_running.mp running).2] at ended
    cases ended

end Engine

namespace Call

/-- A runner leaves its caller where this stage says. -/
def Stage.IsAt : Stage → Caller → Prop
  | .returned _ result, .finished result' => result = result'
  | .waits number _ q, .waits number' q' => number = number' ∧ q = q'
  | _, _ => False

variable {e : Engine} {q : Request} {i : Job.Inputs} {c : Call}

theorem take_start (asks : c.stage = .asks i q) {n : Nat} {e' : Engine} (found : e.lookup i = (.inr n, e')) :
    ∃ c' : Call, c'.stage = .waits n i q ∧ take (e, c) .lookup = (e', c') := by
  simp only [take, lookup, asks, found]
  exact ⟨_, rfl, rfl⟩

theorem take_build (tc : Toolchain) (sound : e.Sound fun _ => True) (idle : e.running = [])
    (asks : c.stage = .asks i q) (found : e.lookup i = (.inr e.cache.nextSequence, e.start i)) :
    ∃ c' : Call, c'.stage = .receive q (Job.run tc ⟨i, e.cache.nextSequence⟩) ∧
      [.lookup, .finish tc e.cache.nextSequence, .wake].foldl take (e, c) =
        ((e.start i).finish tc ⟨i, e.cache.nextSequence⟩, c') := by
  obtain ⟨c', waits, taken⟩ := take_start asks found
  have ended : ((e.start i).finish tc ⟨i, e.cache.nextSequence⟩).outcome? e.cache.nextSequence =
      some (Job.run tc ⟨i, e.cache.nextSequence⟩) := by rw [Engine.outcome?_finish, if_pos rfl]
  refine ⟨{ c' with stage := .receive q (Job.run tc ⟨i, e.cache.nextSequence⟩) }, rfl, ?_⟩
  rw [List.foldl_cons, taken, List.foldl_cons, take, Engine.complete_busy (sound.busy_start idle i), if_pos rfl]
  simp only [List.foldl_cons, List.foldl_nil, take, wake, waits, ended]

/-- Where a runner takes a caller in one go, the caller gets step by step. -/
theorem exists_steps_of_proceed (run : Runner) (sound : e.Sound fun _ => True) (idle : e.running = [])
    (stage : c.stage = .ofRequest q) :
    ∃ steps : List Step, (steps.foldl take (e, c)).1 = (e.proceed run q).2 ∧
      (steps.foldl take (e, c)).2.stage.IsAt (e.proceed run q).1 := by
  -- One turn of the runner is a lookup, and if the build ends at once, its end and a wake.
  fun_induction Engine.proceed run e q generalizing c with
  | case1 e q result ends =>
    refine ⟨[], rfl, ?_⟩
    simp [stage, Stage.ofRequest, ends, Stage.IsAt]
  | case2 e q i needs s e' found ih =>
    have asks : c.stage = .asks i q := by simp only [stage, Stage.ofRequest, needs]
    have serves := Engine.serves_of_lookup found
    have taken : take (e, c) .lookup =
        (e', { c with stage := .ofRequest (q.advance s), asked := i :: c.asked }) := by
      simp only [take, lookup, asks, found, Stage.receive]
    obtain ⟨steps, engine, at_⟩ := ih (c := { c with stage := .ofRequest (q.advance s), asked := i :: c.asked })
      (serves.keepsSound sound idle) (serves.keepsIdle sound idle) rfl
    refine ⟨.lookup :: steps, ?_⟩
    rw [List.foldl_cons, taken]
    exact ⟨engine, at_⟩
  | case3 e q i needs n e' found f =>
    rename_i unended
    have asks : c.stage = .asks i q := by simp only [stage, Stage.ofRequest, needs]
    obtain ⟨rfl, rfl, -⟩ := sound.started_of_lookup idle found
    have settled : f = e.start i := Engine.settle_unended (sound.busy_start idle i) unended
    obtain ⟨c', waits, taken⟩ := take_start asks found
    refine ⟨[.lookup], ?_⟩
    rw [List.foldl_cons, List.foldl_nil, taken, settled]
    exact ⟨rfl, by simp [waits, Stage.IsAt]⟩
  | case4 e q i needs n e' found f failure =>
    rename_i ended
    have asks : c.stage = .asks i q := by simp only [stage, Stage.ofRequest, needs]
    obtain ⟨rfl, rfl, -⟩ := sound.started_of_lookup idle found
    obtain ⟨settled, made⟩ : f = _ ∧ _ := Engine.settle_ended (sound.busy_start idle i) ended
    obtain ⟨c', received, taken⟩ := take_build run.toolchain sound idle asks found
    refine ⟨[.lookup, .finish run.toolchain e.cache.nextSequence, .wake], ?_⟩
    rw [taken, settled]
    exact ⟨rfl, by simp [received, made, Stage.receive, Stage.IsAt]⟩
  | case5 e q i needs n e' found f s ended =>
    rename_i ih
    have asks : c.stage = .asks i q := by simp only [stage, Stage.ofRequest, needs]
    obtain ⟨rfl, rfl, missed⟩ := sound.started_of_lookup idle found
    obtain ⟨settled, made⟩ : f = _ ∧ _ := Engine.settle_ended (sound.busy_start idle i) ended
    obtain ⟨c', received, taken⟩ := take_build run.toolchain sound idle asks found
    have serves := Engine.Serves.built missed made
    rw [settled] at ih ⊢
    rw [made] at received
    obtain ⟨steps, engine, at_⟩ := ih (serves.keepsSound sound idle) (serves.keepsIdle sound idle) received
    refine ⟨[.lookup, .finish run.toolchain e.cache.nextSequence, .wake] ++ steps, ?_⟩
    rw [List.foldl_append, taken]
    exact ⟨engine, at_⟩

/-- What a runner makes of a caller that comes to an engine where nothing is under way is one of the ways that the
caller may go on its own. -/
theorem exists_alone_of_enter (run : Runner) (sound : e.Sound fun _ => True) (idle : e.running = [])
    (t : Task) :
    ∃ steps, (alone e t steps).1 = (e.enter run t.projects t.captured t.name).2 ∧
      (alone e t steps).2.stage.IsAt (e.enter run t.projects t.captured t.name).1 := by
  unfold Engine.enter alone
  cases asked : Request.ofStore t.projects t.captured t.name with
  | error failure => exact ⟨[], rfl, by simp [Stage.begin, asked, Stage.IsAt]⟩
  | ok q => exact exists_steps_of_proceed run sound idle (by simp [Stage.begin, asked])

end Call
end CodeWorkspace
