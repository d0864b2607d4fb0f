import CodeWorkspace.Proofs.Session.Soundness

/-! One caller with nobody else at the cache. Its lookups and waits, and the builds that end meanwhile, come down to
one step for each project: the live snapshot is right and taken, or a build of the project is started and ends
well. -/
namespace CodeWorkspace

namespace Call

/-- All that can happen while a caller is alone. -/
inductive Step where
  | lookup
  /-- A build under way ends, with whatever this toolchain makes of it. -/
  | finish (tc : Toolchain) (number : Nat)
  | wake
  | giveUp (timeout : Duration)

def take (x : Engine × Call) : Step → Engine × Call
  | .lookup => x.2.lookup x.1
  | .finish tc number => (x.1.complete tc number, x.2)
  | .wake => x.2.wake x.1
  | .giveUp timeout => x.2.giveUp timeout x.1

/-- A caller comes to an engine, and these steps are taken. -/
def alone (e : Engine) (t : Task) (steps : List Step) : Engine × Call :=
  steps.foldl take (e, { toTask := t, stage := .begin t })

end Call

namespace Engine

variable {e : Engine} {i : Job.Inputs} {tc : Toolchain} {n : Nat}

theorem complete_idle (idle : e.running = []) (tc : Toolchain) (number : Nat) : e.complete tc number = e := by
  unfold complete
  rw [idle]
  rfl

theorem complete_busy {j : Job} (busy : e.running = [j]) (tc : Toolchain) (number : Nat) :
    e.complete tc number = if j.sequence = number then e.finish tc j else e := by
  unfold complete
  rw [busy]
  by_cases here : j.sequence = number <;> simp [here]

theorem Sound.sequence?_idle {tools : Toolchain → Prop} (h : e.Sound tools) (idle : e.running = [])
    (f : Job.Fingerprint) : e.cache.sequence? f = none := by
  cases under : e.cache.sequence? f with
  | none => rfl
  | some n =>
    obtain ⟨j, running, -⟩ := h.mem_inFlight.mp (Cache.mem_inFlight_of_sequence? under)
    rw [idle] at running
    cases running

end Engine

theorem Engine.Sound.busy_start {e : Engine} (h : e.Sound fun _ => True) (idle : e.running = [])
    (i : Job.Inputs) : (e.start i).running = [⟨i, e.cache.nextSequence⟩] := by
  rw [h.running_start, idle, List.nil_append]

/-! ## Project by project -/

namespace Engine

/-- A project is asked for and given. -/
inductive Serves (e : Engine) (i : Job.Inputs) : Snapshot → Engine → Prop where
  | hit {s : Snapshot} (live : e.cache.liveAt i.key = some s) (same : s.digest = i.digest) :
      Serves e i s { e with cache.stats.hits := e.cache.stats.hits + 1 }
  | built {s : Snapshot} {tc : Toolchain} (missed : ∀ s, e.cache.liveAt i.key = some s → s.digest ≠ i.digest)
      (made : Job.run tc ⟨i, e.cache.nextSequence⟩ = .ok s) :
      Serves e i s ((e.start i).finish tc ⟨i, e.cache.nextSequence⟩)

/-- One project after another, up to the snapshot that was asked for. -/
inductive Answers : Engine → Request → List Job.Inputs → Engine → List (String × Snapshot) → Snapshot → Prop where
  | done {e : Engine} {q : Request} {s : Snapshot} (ends : q.demand = .finished (.ok s)) :
      Answers e q [] e q.built s
  | next {e e' f : Engine} {q : Request} {i : Job.Inputs} {is : List Job.Inputs} {t s : Snapshot}
      {built : List (String × Snapshot)} (needs : q.demand = .needs i) (serves : Serves e i t e')
      (rest : Answers e' (q.advance t) is f built s) : Answers e q (i :: is) f built s

/-- Between two states of an engine these builds were started, so many lookups were answered by live snapshots, and
none by a build under way. -/
structure Since (e f : Engine) (builds : List Job) (hits : Nat) : Prop where
  started : f.started = e.started ++ builds
  hits : f.cache.stats.hits = e.cache.stats.hits + hits
  joins : f.cache.stats.joins = e.cache.stats.joins

theorem Since.refl (e : Engine) : e.Since e [] 0 := ⟨(List.append_nil _).symm, rfl, rfl⟩

theorem Since.trans {e f g : Engine} {builds more : List Job} {n m : Nat} (h : e.Since f builds n)
    (h' : f.Since g more m) : e.Since g (builds ++ more) (n + m) where
  started := by rw [h'.started, h.started, List.append_assoc]
  hits := by rw [h'.hits, h.hits, Nat.add_assoc]
  joins := h'.joins.trans h.joins

namespace Serves

variable {e e' : Engine} {i : Job.Inputs} {s t : Snapshot}

theorem keepsSound (h : Serves e i s e') (sound : e.Sound fun _ => True) (idle : e.running = []) :
    e'.Sound fun _ => True := by
  cases h with
  | hit => exact sound.dropping rfl rfl sound.keys fun _ _ => id
  | built missed =>
    apply (sound.start missed (sound.sequence?_idle idle _)).finish trivial
    rw [sound.busy_start idle i]
    exact List.mem_singleton_self _

theorem keepsIdle (h : Serves e i s e') (sound : e.Sound fun _ => True) (idle : e.running = []) :
    e'.running = [] := by
  cases h with
  | hit => exact idle
  | built =>
    rw [running_finish, sound.busy_start idle i]
    simp

theorem digest (h : Serves e i s e') : s.digest = i.digest := by
  cases h with
  | hit live same => exact same
  | built missed made =>
    have := Job.digest_of_run made
    exact this

theorem live (h : Serves e i s e') (sound : e.Sound fun _ => True) : e'.cache.liveAt i.key = some s := by
  cases h with
  | hit live same => exact live
  | @built tc missed made =>
    -- Whatever was live comes from an earlier build.
    obtain ⟨l, live, le⟩ := Cache.published_le_liveAt (e.start i).cache ⟨i, e.cache.nextSequence⟩ s
    have now : ((e.start i).finish tc ⟨i, e.cache.nextSequence⟩).cache.liveAt i.key = some l := by
      unfold finish
      dsimp only
      rw [made]
      exact live
    rcases Cache.liveAt_of_publish now with old | ⟨result, -⟩
    · obtain ⟨j, hj, -, -, tc', -, made'⟩ := sound.made_of_liveAt (show e.cache.liveAt i.key = some l from old)
      have := sound.below j hj
      rw [Job.sequence_of_run made, Job.sequence_of_run made'] at le
      simp only at le
      omega
    · rw [now]
      rw [made] at result
      rw [Except.ok.inj result]

theorem hit_of_live (h : e.Serves i s e') (live : e.cache.liveAt i.key = some t) (same : t.digest = i.digest) :
    s = t ∧ e.Since e' [] 1 := by
  cases h with
  | hit live' =>
    cases live.symm.trans live'
    exact ⟨rfl, (List.append_nil _).symm, rfl, rfl⟩
  | built missed => exact absurd same (missed t live)

theorem built_of_live (h : e.Serves i s e') (live : e.cache.liveAt i.key = some t) (other : t.digest ≠ i.digest) :
    e.Since e' [⟨i, e.cache.nextSequence⟩] 0 := by
  cases h with
  | hit live' same =>
    cases live.symm.trans live'
    exact absurd same other
  | built => exact ⟨rfl, Cache.hits_publish, Cache.joins_publish⟩

theorem others (h : Serves e i s e') {key : String} (other : key ≠ i.key)
    (live : e.cache.liveAt key = some t) : e'.cache.liveAt key = some t := by
  cases h with
  | hit => exact live
  | @built tc =>
    have before : (e.start i).cache.liveAt key = some t := live
    rw [liveAt_finish_of_ne (j := ⟨i, e.cache.nextSequence⟩) tc (e.start i) other.symm, before]

end Serves

/-- Nothing is under way, and a request is on its way. -/
structure Stands (store : Store) (order taken : List Project) (e : Engine) (q : Request) : Prop where
  sound : e.Sound fun _ => True
  idle : e.running = []
  along : q.Along store order taken

theorem Stands.advance {store : Store} {order taken : List Project} {e e' : Engine} {q : Request} {i : Job.Inputs}
    {s : Snapshot} (h : Stands store order taken e q) {p : Project} {documents : List Document}
    {rest : List (Project × List Document)} (remaining : q.remaining = (p, documents) :: rest)
    (serves : e.Serves i s e') : Stands store order (taken ++ [p]) e' (q.advance s) where
  sound := serves.keepsSound h.sound h.idle
  idle := serves.keepsIdle h.sound h.idle
  along := h.along.advance remaining s

/-- What holds before a request, and is kept project by project, holds when it is answered. -/
theorem Answers.induct {motive : List Project → Engine → Request → Prop} {store : Store}
    {order taken : List Project} {e f : Engine} {q : Request} {is : List Job.Inputs}
    {built : List (String × Snapshot)} {s : Snapshot}
    (answers : e.Answers q is f built s) (stands : Stands store order taken e q) (start : motive taken e q)
    (step : ∀ {taken : List Project} {e e' : Engine} {q : Request} {p : Project}
      {rest : List (Project × List Document)} {i : Job.Inputs} {t : Snapshot}, i ∈ is →
      Stands store order taken e q → q.remaining = (p, i.documents) :: rest → Request.Record store q.built p i →
      e.Serves i t e' → motive taken e q → motive (taken ++ [p]) e' (q.advance t)) :
    ∃ q', Stands store order order f q' ∧ motive order f q' ∧ q'.built = built ∧
      ∃ name rest, built = (name, s) :: rest := by
  induction answers generalizing taken with
  | @done e q s ends =>
    obtain ⟨none, last⟩ := Request.demand_eq_finished_ok ends
    have whole := stands.along.order
    rw [none, List.map_nil, List.append_nil] at whole
    subst whole
    exact ⟨q, stands, start, rfl, last⟩
  | next needs serves _ ih =>
    obtain ⟨p, rest, remaining, record⟩ := stands.along.next needs
    exact ih (stands.advance remaining serves) (step List.mem_cons_self stands remaining record serves start)
      fun mem => step (List.mem_cons_of_mem _ mem)

end Engine

/-! ## Whole requests -/

namespace Call

inductive Stage.Alone (e : Engine) : Stage → Prop where
  | asks {i : Job.Inputs} {q : Request} (needs : q.demand = .needs i) (idle : e.running = []) :
      Alone e (.asks i q)
  | waits {n : Nat} {i : Job.Inputs} {q : Request} (needs : q.demand = .needs i) (busy : e.running = [⟨i, n⟩]) :
      Alone e (.waits n i q)
  | ended {n : Nat} {i : Job.Inputs} {q : Request} {result : Except WorkspaceError Snapshot}
      (needs : q.demand = .needs i) (idle : e.running = []) (ended : e.outcome? n = some result) :
      Alone e (.waits n i q)
  | returned {built : List (String × Snapshot)} {result : Except WorkspaceError Snapshot}
      (idle : e.running = []) : Alone e (.returned built result)

/-- How a caller that is alone gets from a stage to its snapshot. -/
inductive Stage.Ahead (f : Engine) (built : List (String × Snapshot)) (s : Snapshot) (asked : List Job.Inputs) :
    Engine → Stage → Prop where
  | asks {e : Engine} {i : Job.Inputs} {q : Request} {is : List Job.Inputs}
      (answers : e.Answers q is f built s) (sub : ∀ i ∈ is, i ∈ asked) : Ahead f built s asked e (.asks i q)
  | waits {e : Engine} {n : Nat} {i : Job.Inputs} {q : Request} {is : List Job.Inputs} {tc : Toolchain}
      {t : Snapshot} (unended : e.outcome? n = none) (made : Job.run tc ⟨i, n⟩ = .ok t)
      (answers : (e.finish tc ⟨i, n⟩).Answers (q.advance t) is f built s) (sub : ∀ i ∈ is, i ∈ asked) :
      Ahead f built s asked e (.waits n i q)
  | ended {e : Engine} {n : Nat} {i : Job.Inputs} {q : Request} {is : List Job.Inputs} {t : Snapshot}
      (ended : e.outcome? n = some (.ok t)) (answers : e.Answers (q.advance t) is f built s)
      (sub : ∀ i ∈ is, i ∈ asked) : Ahead f built s asked e (.waits n i q)
  | returned : Ahead f built s asked f (.returned built (.ok s))

section Whole

variable {e f : Engine} {q : Request} {built : List (String × Snapshot)} {s : Snapshot} {asked : List Job.Inputs}

theorem Stage.alone_ofRequest (idle : e.running = []) : (Stage.ofRequest q).Alone e := by
  unfold Stage.ofRequest
  split
  · exact .returned idle
  · next needs => exact .asks needs idle

theorem Stage.answers_of_ahead (ahead : (Stage.ofRequest q).Ahead f built s asked e) :
    ∃ is, e.Answers q is f built s ∧ ∀ i ∈ is, i ∈ asked := by
  unfold Stage.ofRequest at ahead
  split at ahead
  · next ends =>
    cases ahead
    exact ⟨[], .done ends, by simp⟩
  · next needs =>
    cases ahead with
    | asks answers sub => exact ⟨_, answers, sub⟩

theorem Stage.Ahead.unended {n : Nat} {i : Job.Inputs} (ahead : (Stage.waits n i q).Ahead f built s asked e)
    (unended : e.outcome? n = none) : ∃ tc t is, Job.run tc ⟨i, n⟩ = .ok t ∧
      (e.finish tc ⟨i, n⟩).Answers (q.advance t) is f built s ∧ ∀ i ∈ is, i ∈ asked := by
  cases ahead with
  | waits _ made answers sub => exact ⟨_, _, _, made, answers, sub⟩
  | ended ended => cases unended.symm.trans ended

theorem Stage.Ahead.outcome {n : Nat} {i : Job.Inputs} {result : Except WorkspaceError Snapshot}
    (ahead : (Stage.waits n i q).Ahead f built s asked e) (ended : e.outcome? n = some result) :
    ∃ t is, result = .ok t ∧ e.Answers (q.advance t) is f built s ∧ ∀ i ∈ is, i ∈ asked := by
  cases ahead with
  | waits unended => cases unended.symm.trans ended
  | ended well answers sub => exact ⟨_, _, Option.some.inj (ended.symm.trans well), answers, sub⟩

theorem asked_take (x : Engine × Call) (step : Step) : ∀ i ∈ x.2.asked, i ∈ (take x step).2.asked := by
  cases step with
  | lookup => exact (moves_lookup x.1 x.2).asked
  | finish => exact fun _ => id
  | wake => exact (moves_wake x.1 x.2).asked
  | giveUp timeout => exact (moves_giveUp timeout x.1 x.2).asked

theorem asked_foldl (x : Engine × Call) (steps : List Step) :
    ∀ i ∈ x.2.asked, i ∈ (steps.foldl take x).2.asked := by
  induction steps generalizing x with
  | nil => exact fun _ => id
  | cons step rest ih => exact fun i hi => ih (take x step) i (asked_take x step i hi)

/-! ### One step -/

variable {c : Call} {n : Nat} {i : Job.Inputs} (step : Step)

theorem take_returned {result : Except WorkspaceError Snapshot} (at_ : c.stage = .returned built result)
    (idle : e.running = []) : take (e, c) step = (e, c) := by
  cases step with
  | lookup => simp only [take, lookup, at_]
  | finish tc number => simp only [take, Engine.complete_idle idle]
  | wake => simp only [take, wake, at_]
  | giveUp timeout => simp only [take, giveUp, at_]

/-- A caller that is alone finds no build under way. -/
theorem take_asks (at_ : c.stage = .asks i q) (sound : e.Sound fun _ => True) (idle : e.running = []) :
    take (e, c) step = (e, c) ∨
      (∃ t, e.cache.liveAt i.key = some t ∧ t.digest = i.digest ∧
        take (e, c) step = ({ e with cache.stats.hits := e.cache.stats.hits + 1 },
          { c with stage := .receive q (.ok t), asked := i :: c.asked })) ∨
      (∀ t, e.cache.liveAt i.key = some t → t.digest ≠ i.digest) ∧ ∃ c' : Call,
        c'.stage = .waits e.cache.nextSequence i q ∧ i ∈ c'.asked ∧ take (e, c) step = (e.start i, c') := by
  cases step with
  | lookup =>
    have way := Engine.looked e i
    simp only [take, lookup, at_]
    generalize e.lookup i = r at way
    cases way with
    | hit live same => exact .inr (.inl ⟨_, live, same, rfl⟩)
    | joined missed under =>
      rw [sound.sequence?_idle idle] at under
      cases under
    | started missed => exact .inr (.inr ⟨missed, _, rfl, List.mem_cons_self, rfl⟩)
  | finish tc number =>
    left
    simp only [take, Engine.complete_idle idle]
  | wake =>
    left
    simp only [take, wake, at_]
  | giveUp timeout =>
    left
    simp only [take, giveUp, at_]

/-- The build that a caller waits for may end; nothing else gets the caller its snapshot. -/
theorem take_waits (at_ : c.stage = .waits n i q) (busy : e.running = [⟨i, n⟩]) :
    take (e, c) step = (e, c) ∨ (∃ tc, take (e, c) step = (e.finish tc ⟨i, n⟩, c)) ∨
      ∃ failure, (take (e, c) step).2.stage = .returned q.built (.error failure) := by
  cases step with
  | lookup =>
    left
    simp only [take, lookup, at_]
  | finish tc number =>
    simp only [take, Engine.complete_busy busy]
    split
    · exact .inr (.inl ⟨tc, rfl⟩)
    · exact .inl rfl
  | wake =>
    have unended : e.outcome? n = none :=
      (Engine.mem_running.mp (by rw [busy]; exact List.mem_singleton_self _ : ⟨i, n⟩ ∈ e.running)).2
    left
    simp only [take, wake, at_, unended]
  | giveUp timeout =>
    right; right
    simp only [take, giveUp, at_]
    exact ⟨_, rfl⟩

theorem take_ended {result : Except WorkspaceError Snapshot} (at_ : c.stage = .waits n i q)
    (idle : e.running = []) (ended : e.outcome? n = some result) :
    take (e, c) step = (e, c) ∨ take (e, c) step = (e, { c with stage := .receive q result }) ∨
      ∃ failure, (take (e, c) step).2.stage = .returned q.built (.error failure) := by
  cases step with
  | lookup =>
    left
    simp only [take, lookup, at_]
  | finish tc number =>
    left
    simp only [take, Engine.complete_idle idle]
  | wake =>
    right; left
    simp only [take, wake, at_, ended]
  | giveUp timeout =>
    right; right
    simp only [take, giveUp, at_]
    exact ⟨_, rfl⟩

end Whole

/-! ### All steps -/

section All

variable {e : Engine} {q : Request} {built : List (String × Snapshot)} {s : Snapshot}

theorem failed_foldl {failure : WorkspaceError} {x : Engine × Call}
    (failed : x.2.stage = .returned built (.error failure)) (steps : List Step) :
    (steps.foldl take x).2.stage = .returned built (.error failure) := by
  induction steps generalizing x with
  | nil => exact failed
  | cons step rest ih =>
    apply ih
    cases step with
    | lookup => simp only [take, lookup, failed]
    | finish => exact failed
    | wake => simp only [take, wake, failed]
    | giveUp => simp only [take, giveUp, failed]

theorem ahead_of_alone {c : Call} (steps : List Step) (alone : c.stage.Alone e) (sound : e.Sound fun _ => True)
    (returned : (steps.foldl take (e, c)).2.stage = .returned built (.ok s)) :
    c.stage.Ahead (steps.foldl take (e, c)).1 built s (steps.foldl take (e, c)).2.asked e := by
  -- From the last step backwards: what is ahead of a step follows from what is ahead of the stage it leads to.
  induction steps generalizing e c with
  | nil =>
    rw [List.foldl_nil] at returned ⊢
    rw [returned]
    exact .returned
  | cons step rest ih =>
    rw [List.foldl_cons] at returned ⊢
    have grows := asked_foldl (take (e, c) step) rest
    -- A caller that fails at this step would have failed in the end.
    have lasts {built' : List (String × Snapshot)} {failure : WorkspaceError}
        (failed : (take (e, c) step).2.stage = .returned built' (.error failure)) : False := by
      cases (failed_foldl failed rest).symm.trans returned
    generalize at_ : c.stage = stage at alone
    cases alone with
    | @asks i q needs idle =>
      rcases take_asks step at_ sound idle with same | ⟨t, live, same, taken⟩ | ⟨missed, c', at', mem, taken⟩
      · rw [same] at returned ⊢
        have := ih (by rw [at_]; exact .asks needs idle) sound returned
        rwa [at_] at this
      · rw [taken] at returned grows ⊢
        have sound' := (Engine.Serves.hit live same).keepsSound sound idle
        have idle' : Engine.running { e with cache.stats.hits := e.cache.stats.hits + 1 } = [] := idle
        have ahead := ih (Stage.alone_ofRequest idle') sound' returned
        obtain ⟨is, answers, sub⟩ := Stage.answers_of_ahead ahead
        exact .asks (.next needs (.hit live same) answers)
          (List.forall_mem_cons.mpr ⟨grows i List.mem_cons_self, sub⟩)
      · rw [taken] at returned grows ⊢
        have ahead := ih (by rw [at']; exact .waits needs (sound.busy_start idle i))
          (sound.start missed (sound.sequence?_idle idle _)) returned
        rw [at'] at ahead
        obtain ⟨tc, t, is, made, answers, sub⟩ := ahead.unended sound.outcome?_nextSequence
        exact .asks (.next needs (.built missed made) answers)
          (List.forall_mem_cons.mpr ⟨grows i mem, sub⟩)
    | @waits n i q needs busy =>
      rcases take_waits step at_ busy with same | ⟨tc, taken⟩ | ⟨failure, failed⟩
      · rw [same] at returned ⊢
        have := ih (by rw [at_]; exact .waits needs busy) sound returned
        rwa [at_] at this
      · rw [taken] at returned ⊢
        have running : (⟨i, n⟩ : Job) ∈ e.running := by rw [busy]; exact List.mem_singleton_self _
        have ended : (e.finish tc ⟨i, n⟩).outcome? n = some (Job.run tc ⟨i, n⟩) := by
          rw [Engine.outcome?_finish, if_pos rfl]
        have idle : (e.finish tc ⟨i, n⟩).running = [] := by
          rw [Engine.running_finish, busy]
          simp
        have ahead := ih (by rw [at_]; exact .ended needs idle ended) (sound.finish trivial running) returned
        rw [at_] at ahead
        obtain ⟨t, is, made, answers, sub⟩ := ahead.outcome ended
        exact .waits (Engine.mem_running.mp running).2 made answers sub
      · exact (lasts failed).elim
    | @ended n i q result needs idle ended =>
      rcases take_ended step at_ idle ended with same | taken | ⟨failure, failed⟩
      · rw [same] at returned ⊢
        have := ih (by rw [at_]; exact .ended needs idle ended) sound returned
        rwa [at_] at this
      · cases result with
        | error failure => exact (lasts (by rw [taken]; rfl)).elim
        | ok t =>
          rw [taken] at returned ⊢
          have ahead := ih (Stage.alone_ofRequest idle) sound returned
          obtain ⟨is, answers, sub⟩ := Stage.answers_of_ahead ahead
          exact .ended ended answers sub
      · exact (lasts failed).elim
    | @returned built' result idle =>
      rw [take_returned step at_ idle] at returned ⊢
      have := ih (by rw [at_]; exact .returned idle) sound returned
      rwa [at_] at this

/-- A caller that is alone and is given its snapshot got there project by project. -/
theorem answers_of_alone {t : Task} {steps : List Step} (sound : e.Sound fun _ => True) (idle : e.running = [])
    (returned : (alone e t steps).2.stage = .returned built (.ok s)) :
    ∃ q is, Request.ofStore t.projects t.captured t.name = .ok q ∧ e.Answers q is (alone e t steps).1 built s ∧
      ∀ i ∈ is, i ∈ (alone e t steps).2.asked := by
  unfold alone at returned ⊢
  cases asked : Request.ofStore t.projects t.captured t.name with
  | error failure =>
    have failed : Stage.begin t = .returned [] (.error failure) := by simp only [Stage.begin, asked]
    cases (failed_foldl (x := (e, { toTask := t, stage := .begin t })) failed steps).symm.trans returned
  | ok q =>
    have begins : Stage.begin t = .ofRequest q := by simp only [Stage.begin, asked]
    rw [begins] at returned ⊢
    have ahead := ahead_of_alone steps (Stage.alone_ofRequest idle) sound returned
    obtain ⟨is, answers, sub⟩ := Stage.answers_of_ahead ahead
    exact ⟨q, is, rfl, answers, sub⟩

end All
end Call
end CodeWorkspace
