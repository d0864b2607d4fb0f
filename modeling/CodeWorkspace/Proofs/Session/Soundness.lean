import CodeWorkspace.Proofs.Session.Basic
import CodeWorkspace.Proofs.Solution.Closure

/-! What every session keeps to as long as no two buffers have one digest: a caller only ever holds snapshots of the
projects that it looked up, with the digests that it came to, whoever had them built. Where digests tell paths and not
only how they read, the store that it captured from describes them all. -/
namespace CodeWorkspace

variable {tools : Toolchain → Prop} {hashed : List Job.Inputs}

namespace Call

/-- The project of the snapshot was looked up, and came to its digest. -/
def Known (looked : List Job.Inputs) (s : Snapshot) : Prop :=
  ∃ i ∈ looked, s.project = i.project ∧ s.digest = i.digest

/-- What a caller knows of a snapshot that it was given. -/
structure Holds (tools : Toolchain → Prop) (hashed : List Job.Inputs) (e : Engine) (looked : List Job.Inputs)
    (s : Snapshot) : Prop where
  genuine : s.Genuine tools hashed
  known : Known looked s
  made : ∃ j ∈ e.started, e.outcome? j.sequence = some (.ok s)

/-- What a caller knows of the inputs that it looked up. -/
structure Wants (tools : Toolchain → Prop) (hashed : List Job.Inputs) (t : Task) (looked : List Job.Inputs)
    (i : Job.Inputs) : Prop where
  asked : i.Asked tools hashed
  drawn : ∃ order, t.projects.compilationOrder t.name = .ok order ∧ ∃ p ∈ order,
    Request.Drawn t.projects t.captured p i
  known : ∀ r ∈ i.references, Known looked r

theorem Known.mono {looked more : List Job.Inputs} {s : Snapshot} (h : Known looked s) (sub : ∀ i ∈ looked, i ∈ more) :
    Known more s := by
  obtain ⟨i, hi, same⟩ := h
  exact ⟨i, sub i hi, same⟩

theorem Holds.mono {more looked further : List Job.Inputs} {e f : Engine} {s : Snapshot}
    (h : Holds tools hashed e looked s) (sub : ∀ i ∈ hashed, i ∈ more) (sub' : ∀ i ∈ looked, i ∈ further)
    (leads : e.LeadsTo f) : Holds tools more f further s := by
  obtain ⟨j, hj, ended⟩ := h.made
  exact ⟨h.genuine.mono sub, h.known.mono sub', j, leads.started j hj, leads.outcome ended⟩

theorem Wants.mono {more looked further : List Job.Inputs} {t : Task} {i : Job.Inputs}
    (h : Wants tools hashed t looked i) (sub : ∀ i ∈ hashed, i ∈ more) (sub' : ∀ i ∈ looked, i ∈ further) :
    Wants tools more t further i :=
  ⟨h.asked.mono sub, h.drawn, fun r hr => (h.known r hr).mono sub'⟩

/-- Whatever was looked up with is held. -/
theorem Wants.held {t : Task} {looked : List Job.Inputs} {i : Job.Inputs} (h : Wants tools hashed t looked i) :
    ∀ d ∈ i.documents, ∃ path, t.captured.get? path = some d := by
  obtain ⟨order, -, p, -, drawn⟩ := h.drawn
  intro d hd
  obtain ⟨path, -, held⟩ := Store.held_of_capture drawn.captured d hd
  exact ⟨path, held⟩

/-- The request of a caller fits what was captured, and what it was given is `good`. -/
def OnWay (good : Snapshot → Prop) (t : Task) (q : Request) : Prop :=
  ∃ order, t.projects.compilationOrder t.name = .ok order ∧ q.Fits t.projects t.captured good order

inductive Stage.Sound (good : Snapshot → Prop) (e : Engine) (t : Task) (looked : List Job.Inputs) : Stage → Prop where
  | asks {i : Job.Inputs} {q : Request} (way : OnWay good t q) (needs : q.demand = .needs i) :
      Sound good e t looked (.asks i q)
  | waits {number : Nat} {i : Job.Inputs} {q : Request} (way : OnWay good t q)
      (needs : q.demand = .needs i) (mem : i ∈ looked)
      (build : ∃ j ∈ e.started, j.fingerprint = i.fingerprint ∧ j.sequence = number) :
      Sound good e t looked (.waits number i q)
  | returned {q : Request} {s : Snapshot} (way : OnWay good t q) (ends : q.demand = .finished (.ok s)) :
      Sound good e t looked (.returned q.built (.ok s))
  | failed {built : List (String × Snapshot)} {failure : WorkspaceError} :
      Sound good e t looked (.returned built (.error failure))

structure Sound (tools : Toolchain → Prop) (hashed : List Job.Inputs) (e : Engine) (c : Call) : Prop where
  distinct : c.projects.Distinct
  store : c.captured.Sound
  asked : ∀ i ∈ c.asked, Wants tools hashed c.toTask c.asked i
  started : ∀ number ∈ c.started, ∃ j ∈ e.started, j.sequence = number ∧ j.inputs ∈ c.asked
  stage : c.stage.Sound (Holds tools hashed e c.asked) e c.toTask c.asked

end Call

namespace Session

structure Sound (tools : Toolchain → Prop) (w : Session) : Prop where
  store : w.store.Sound
  engine : w.engine.Sound tools
  calls : ∀ c ∈ w.calls, c.Sound tools w.hashed w.engine
  history : (w.calls.map (·.captured)).Pairwise Store.LeadsTo
  captured : ∀ c ∈ w.calls, c.captured.LeadsTo w.store
  builds : ∀ j ∈ w.engine.started, ∃ c ∈ w.calls, j.inputs ∈ c.asked ∧ j.sequence ∈ c.started

end Session

/-! ## Stages -/

namespace Call

variable {good better : Snapshot → Prop} {e f : Engine} {c : Call} {t : Task}
  {looked : List Job.Inputs} {q : Request} {i : Job.Inputs}

theorem Stage.Sound.ofRequest (way : OnWay good t q) : (Stage.ofRequest q).Sound good e t looked := by
  unfold Stage.ofRequest
  split
  · next result ends =>
    cases result with
    | error => exact .failed
    | ok => exact .returned way ends
  · next needs => exact .asks way needs

theorem Stage.Sound.begin (t : Task) : (Stage.begin t).Sound good e t looked := by
  unfold Stage.begin
  split
  · exact .failed
  · next made =>
    obtain ⟨order, ordered, -, fits⟩ := Request.ofStore_eq_ok made
    exact .ofRequest ⟨order, ordered, fits⟩

theorem Stage.Sound.receive (way : OnWay good t q)
    (needs : q.demand = .needs i) {result : Except WorkspaceError Snapshot}
    (fine : ∀ s, result = .ok s → s.project = i.project ∧ good s) : (Stage.receive q result).Sound good e t looked := by
  cases result with
  | error => exact .failed
  | ok s =>
    obtain ⟨order, ordered, fits⟩ := way
    obtain ⟨project, holds⟩ := fine s rfl
    exact .ofRequest ⟨order, ordered, fits.advance needs project holds⟩

theorem OnWay.mono (way : OnWay good t q) (sub : ∀ s, good s → better s) : OnWay better t q := by
  obtain ⟨order, ordered, fits⟩ := way
  exact ⟨order, ordered, fits.mono sub⟩

theorem Stage.Sound.mono {stage : Stage} (h : stage.Sound good e t looked) (sub : ∀ s, good s → better s)
    (leads : e.LeadsTo f) : stage.Sound better f t looked := by
  cases h with
  | asks way needs => exact .asks (way.mono sub) needs
  | waits way needs mem build =>
    obtain ⟨j, hj, same⟩ := build
    exact .waits (way.mono sub) needs mem ⟨j, leads.started j hj, same⟩
  | returned way ends => exact .returned (way.mono sub) ends
  | failed => exact .failed

theorem Sound.mono {more : List Job.Inputs} (h : c.Sound tools hashed e) (sub : ∀ i ∈ hashed, i ∈ more)
    (leads : e.LeadsTo f) : c.Sound tools more f where
  distinct := h.distinct
  store := h.store
  asked i hi := (h.asked i hi).mono sub fun _ => id
  started number hn := by
    obtain ⟨j, hj, same⟩ := h.started number hn
    exact ⟨j, leads.started j hj, same⟩
  stage := h.stage.mono (fun _ holds => holds.mono sub (fun _ => id) leads) leads

/-- What a caller asks for next, it wants. -/
theorem OnWay.wants (way : OnWay (Holds tools hashed e looked) t q) (needs : q.demand = .needs i)
    (mem : i ∈ hashed) : Wants tools hashed t looked i := by
  obtain ⟨order, ordered, fits⟩ := way
  have good := fits.good_of_needs needs
  exact ⟨⟨mem, fun r hr => (good r hr).genuine⟩, ⟨order, ordered, fits.drawn needs⟩, fun r hr => (good r hr).known⟩

/-- What a caller has that got its snapshot: one for each project of the order, this one for the last. -/
structure Given (tools : Toolchain → Prop) (hashed : List Job.Inputs) (e : Engine) (c : Call) (order : List Project)
    (built : List (String × Snapshot)) (s : Snapshot) : Prop where
  ordered : c.projects.compilationOrder c.name = .ok order
  names : built.map (·.1) = (order.map (·.name)).reverse
  last : ∃ name rest, built = (name, s) :: rest
  held : ∀ x ∈ built, x.2.project = x.1 ∧ Holds tools hashed e c.asked x.2

theorem Sound.given {built : List (String × Snapshot)} {s : Snapshot} (sound : c.Sound tools hashed e)
    (returned : c.stage = .returned built (.ok s)) : ∃ order, Given tools hashed e c order built s := by
  have stage := sound.stage
  rw [returned] at stage
  cases stage with
  | returned way ends =>
    obtain ⟨order, ordered, fits⟩ := way
    obtain ⟨none, last⟩ := Request.demand_eq_finished_ok ends
    have names := fits.names
    rw [none, List.map_nil, List.append_nil, List.reverse_eq_iff] at names
    exact ⟨order, ordered, names, last, fits.built⟩

namespace Given

variable {order : List Project} {built : List (String × Snapshot)} {s : Snapshot}

theorem holds (h : Given tools hashed e c order built s) : Holds tools hashed e c.asked s := by
  obtain ⟨name, rest, rfl⟩ := h.last
  exact (h.held (name, s) List.mem_cons_self).2

theorem root (h : Given tools hashed e c order built s) :
    ∃ root before, c.projects.find? c.name = some root ∧ order = before ++ [root] ∧ s.project = root.name := by
  obtain ⟨root, before, found, split⟩ := Projects.last_of_compilationOrder h.ordered
  obtain ⟨name, rest, last⟩ := h.last
  have names := h.names
  rw [last, split, List.map_append, List.reverse_append, List.map_cons] at names
  refine ⟨root, before, found, split, ?_⟩
  have project : s.project = name := (h.held (name, s) (by rw [last]; exact List.mem_cons_self)).1
  exact project.trans (List.cons.inj names).1

end Given

/-! ## Outcomes -/

/-- The outcome of a build of these inputs. -/
def Settles (e : Engine) (i : Job.Inputs) (result : Except WorkspaceError Snapshot) : Prop :=
  ∃ j ∈ e.started, j.fingerprint = i.fingerprint ∧ e.outcome? j.sequence = some result

theorem settles_of_liveAt {s : Snapshot} (sound : e.Sound tools)
    (live : e.cache.liveAt i.key = some s) (same : s.digest = i.digest) : Settles e i (.ok s) := by
  obtain ⟨j, hj, key, ended, tc, -, made⟩ := sound.made_of_liveAt live
  rw [Job.digest_of_run made] at same
  exact ⟨j, hj, by simp only [Job.fingerprint, Job.Inputs.fingerprint, key, same], ended⟩

/-- Whatever a caller is given for what it looked up, it knows. -/
theorem holds_of_settles {s : Snapshot}
    (free : Job.Inputs.CollisionFree hashed) (sound : e.Sound tools)
    (builds : ∀ j ∈ e.started, j.inputs.Asked tools hashed) (asked : i ∈ hashed) (mem : i ∈ looked)
    (settles : Settles e i (.ok s)) : s.project = i.project ∧ Holds tools hashed e looked s := by
  obtain ⟨j, hj, same, ended⟩ := settles
  obtain ⟨tc, tool, made⟩ := sound.run_of_outcome hj ended
  have digest : j.inputs.digest = i.digest := congrArg Job.Fingerprint.digest same
  have project : s.project = i.project :=
    (Job.project_of_run made).trans (free.fields (builds j hj).mem asked digest).1
  exact ⟨project, .run tool (builds j hj).mem made (builds j hj).references,
    ⟨i, mem, project, (Job.digest_of_run made).trans digest⟩, j, hj, ended⟩

/-! ## Moves -/

namespace Moves

variable {r : Engine × Call}

/-- What a caller captured stays. -/
theorem frame (h : Moves e c r) :
    r.2.toTask = c.toTask := by
  cases h <;> rfl

theorem leads (h : Moves e c r) : e.LeadsTo r.1 := by
  cases h with
  | starts => exact .start e _
  | _ => exact ⟨fun _ => id, id⟩

theorem engine (h : Moves e c r) (sound : e.Sound tools) : r.1.Sound tools := by
  cases h with
  | stays => exact sound
  | hit => exact sound.dropping rfl rfl sound.keys fun _ _ => id
  | joins => exact sound.dropping rfl rfl sound.keys fun _ _ => id
  | starts _ missed new => exact sound.start missed new
  | wakes => exact sound
  | givesUp => exact sound.giveUp

/-- Callers look at live snapshots and leave them as they are. -/
theorem liveAt (h : Moves e c r) (key : String) : r.1.cache.liveAt key = e.cache.liveAt key := by
  cases h <;> rfl

theorem asked (h : Moves e c r) : ∀ i ∈ c.asked, i ∈ r.2.asked := by
  cases h with
  | hit | joins | starts => exact fun _ => List.mem_cons_of_mem _
  | stays | wakes | givesUp => exact fun _ => id

theorem started (h : Moves e c r) : ∀ number ∈ c.started, number ∈ r.2.started := by
  cases h with
  | starts => exact fun _ => List.mem_cons_of_mem _
  | _ => exact fun _ => id

/-- A build that was not there before is one that the caller started. -/
theorem builds (h : Moves e c r) :
    ∀ j ∈ r.1.started, j ∈ e.started ∨ j.inputs ∈ r.2.asked ∧ j.sequence ∈ r.2.started := by
  cases h with
  | starts =>
    intro j hj
    rcases List.mem_append.mp hj with hj | hj
    · exact .inl hj
    · rw [List.mem_singleton.mp hj]
      exact .inr ⟨List.mem_cons_self, List.mem_cons_self⟩
  | _ => exact fun _ => .inl

/-- A caller that is sound stays sound, if the builds were all asked for. -/
theorem sound (h : Moves e c r) (free : Job.Inputs.CollisionFree hashed) (engine : e.Sound tools)
    (builds : ∀ j ∈ e.started, j.inputs.Asked tools hashed) (mem : ∀ i ∈ r.2.asked, i ∈ hashed)
    (sound : c.Sound tools hashed e) : r.2.Sound tools hashed r.1 := by
  have leads := h.leads
  obtain ⟨distinct, store, wanted, started, stage⟩ := sound.mono (fun _ => id) leads
  have started' : ∀ number ∈ c.started,
      ∃ j ∈ r.1.started, j.sequence = number ∧ j.inputs ∈ r.2.asked := by
    intro number hn
    obtain ⟨j, hj, same, asked⟩ := started number hn
    exact ⟨j, hj, same, h.asked _ asked⟩
  -- One more was looked up, and all that was known before is known still.
  have more (i : Job.Inputs) {q : Request} (way : OnWay (Holds tools hashed r.1 c.asked) c.toTask q) :
      OnWay (Holds tools hashed r.1 (i :: c.asked)) c.toTask q :=
    way.mono fun _ holds => holds.mono (fun _ => id) (fun _ => List.mem_cons_of_mem i) (.refl _)
  have wants {i : Job.Inputs} {q : Request} (way : OnWay (Holds tools hashed r.1 c.asked) c.toTask q)
      (needs : q.demand = .needs i) (mem : i ∈ hashed) :
      ∀ x ∈ i :: c.asked, Wants tools hashed c.toTask (i :: c.asked) x := by
    have sub : ∀ x ∈ c.asked, x ∈ i :: c.asked := fun _ => List.mem_cons_of_mem i
    exact List.forall_mem_cons.mpr ⟨(way.wants needs mem).mono (fun _ => id) sub,
      fun x hx => (wanted x hx).mono (fun _ => id) sub⟩
  cases h with
  | stays => exact sound
  | @hit i q s stats at_ live same =>
    rw [at_] at stage
    obtain ⟨way, needs⟩ := stage
    have here := mem i List.mem_cons_self
    obtain ⟨project, holds⟩ := holds_of_settles free engine builds here List.mem_cons_self
      (settles_of_liveAt engine live same)
    refine ⟨distinct, store, wants way needs here, started', ?_⟩
    have given := And.intro project (holds.mono (fun _ => id) (fun _ => id) leads)
    exact Stage.Sound.receive (more i way) needs fun t made => Except.ok.inj made ▸ given
  | @joins i q number stats at_ under =>
    -- The build may be that of another caller. All that counts is its fingerprint.
    rw [at_] at stage
    obtain ⟨way, needs⟩ := stage
    obtain ⟨j, hj, same⟩ := engine.mem_inFlight.mp (Cache.mem_inFlight_of_sequence? under)
    refine ⟨distinct, store, wants way needs (mem i List.mem_cons_self), started', ?_⟩
    exact .waits (more i way) needs List.mem_cons_self ⟨j, (Engine.mem_running.mp hj).1, same⟩
  | @starts i q at_ missed new =>
    rw [at_] at stage
    obtain ⟨way, needs⟩ := stage
    have job : (⟨i, e.cache.nextSequence⟩ : Job) ∈ (e.start i).started := by simp [Engine.start]
    refine ⟨distinct, store, wants way needs (mem i List.mem_cons_self), ?_, ?_⟩
    · exact List.forall_mem_cons.mpr ⟨⟨_, job, rfl, List.mem_cons_self⟩, started'⟩
    · exact .waits (more i way) needs List.mem_cons_self ⟨_, job, rfl, rfl⟩
  | @wakes number i q result at_ ended =>
    rw [at_] at stage
    refine ⟨distinct, store, wanted, started', ?_⟩
    cases stage with
    | waits way needs looked build =>
      obtain ⟨j, hj, same, rfl⟩ := build
      refine .receive way needs fun s made => ?_
      exact holds_of_settles free engine builds (mem i looked) looked ⟨j, hj, same, made ▸ ended⟩
  | givesUp => exact ⟨distinct, store, wanted, started', .failed⟩

end Moves
end Call

/-! ## Whole sessions -/

namespace Session

variable {w : Session} {event : Event}

/-- Builds that end are carried out by these toolchains. -/
def Event.Uses (tools : Toolchain → Prop) : Event → Prop
  | .finish tc _ => tools tc
  | _ => True

/-- Callers of one set of projects, among edits; live snapshots are not dropped. -/
def Event.Within (ps : Projects) : Event → Prop
  | .call solution _ => Projects.ofSolution solution = .ok ps
  | .invalidate _ | .clear => False
  | _ => True

instance (ps : Projects) : (event : Event) → Decidable (event.Within ps)
  | .call solution _ => inferInstanceAs (Decidable (Projects.ofSolution solution = .ok ps))
  | .invalidate _ | .clear => inferInstanceAs (Decidable False)
  | .put .. | .evict _ | .lookup _ | .finish .. | .wake _ | .giveUp .. => inferInstanceAs (Decidable True)

section Set

variable {k : Nat} {c c' : Call} {calls : List Call}

private theorem mem_set_of_mem (found : calls[k]? = some c) {x : Call} (hx : x ∈ calls) :
    x = c ∨ x ∈ calls.set k c' := by
  obtain ⟨m, hm⟩ := List.mem_iff_getElem?.mp hx
  by_cases same : m = k
  · subst same
    exact .inl (Option.some.inj (hm.symm.trans found))
  · refine .inr (List.mem_iff_getElem?.mpr ⟨m, ?_⟩)
    rw [List.getElem?_set_ne (Ne.symm same), hm]

private theorem mem_set_self (found : calls[k]? = some c) : c' ∈ calls.set k c' :=
  List.mem_set (List.getElem?_eq_some_iff.mp found).1 c'

private theorem map_captured_set (found : calls[k]? = some c) (same : c'.captured = c.captured) :
    (calls.set k c').map (·.captured) = calls.map (·.captured) := by
  obtain ⟨inside, rfl⟩ := List.getElem?_eq_some_iff.mp found
  apply List.ext_getElem?
  intro n
  rw [List.getElem?_map, List.getElem?_map, List.getElem?_set]
  split
  · next here =>
    subst here
    rw [found, Option.map_some, Option.map_some, same]
  · rfl

end Set

theorem move_some {k : Nat} {c : Call} (found : w.calls[k]? = some c)
    (step : Engine → Call → Engine × Call) :
    w.move k step =
      { w with engine := (step w.engine c).1, calls := w.calls.set k (step w.engine c).2 } := by
  unfold move
  rw [found]

theorem move_none {k : Nat} (absent : w.calls[k]? = none) (step : Engine → Call → Engine × Call) :
    w.move k step = w := by
  unfold move
  rw [absent]

section Move

variable {k : Nat} {step : Engine → Call → Engine × Call}

theorem calls_move_self {c : Call} (found : w.calls[k]? = some c) (step : Engine → Call → Engine × Call) :
    (w.move k step).calls[k]? = some (step w.engine c).2 := by
  rw [move_some found, List.getElem?_set_self (List.getElem?_eq_some_iff.mp found).1]

/-- The engine stays as it is, or a caller moves. -/
theorem engine_move_induction {motive : Engine → Prop} (steps : ∀ e c, Call.Moves e c (step e c))
    (stays : motive w.engine) (moves : ∀ c r, Call.Moves w.engine c r → motive r.1) :
    motive (w.move k step).engine := by
  cases found : w.calls[k]? with
  | none =>
    rw [move_none found]
    exact stays
  | some c =>
    rw [move_some found]
    exact moves c _ (steps w.engine c)

theorem engine_leadsTo_move (steps : ∀ e c, Call.Moves e c (step e c)) :
    w.engine.LeadsTo (w.move k step).engine :=
  engine_move_induction steps (.refl w.engine) fun _ _ way => way.leads

theorem sound_engine_move (steps : ∀ e c, Call.Moves e c (step e c)) (h : w.engine.Sound tools) :
    (w.move k step).engine.Sound tools :=
  engine_move_induction (motive := (·.Sound tools)) steps h fun _ _ way => way.engine h

theorem liveAt_move (steps : ∀ e c, Call.Moves e c (step e c)) (key : String) :
    (w.move k step).engine.cache.liveAt key = w.engine.cache.liveAt key :=
  engine_move_induction (motive := fun e => e.cache.liveAt key = w.engine.cache.liveAt key) steps rfl
    fun _ _ way => way.liveAt key

end Move

/-- What was hashed stays hashed. -/
theorem hashed_move {k : Nat} {step : Engine → Call → Engine × Call}
    (moves : ∀ e c, Call.Moves e c (step e c)) : ∀ i ∈ w.hashed, i ∈ (w.move k step).hashed := by
  cases found : w.calls[k]? with
  | none =>
    rw [move_none found]
    exact fun _ => id
  | some c =>
    rw [move_some found]
    intro i hi
    obtain ⟨x, hx, mem⟩ := mem_hashed.mp hi
    rcases mem_set_of_mem found hx with rfl | hx
    · exact mem_hashed.mpr ⟨_, mem_set_self found, (moves w.engine x).asked i mem⟩
    · exact mem_hashed.mpr ⟨x, hx, mem⟩

/-- What every move of a caller keeps, the steps of callers keep. -/
theorem calls_move {P : Call → Prop} {k : Nat} {step : Engine → Call → Engine × Call}
    (steps : ∀ e c, Call.Moves e c (step e c))
    (moves : ∀ c ∈ w.calls, ∀ r, Call.Moves w.engine c r → r.2 ∈ (w.move k step).calls → P c → P r.2)
    (all : ∀ c ∈ w.calls, P c) : ∀ c ∈ (w.move k step).calls, P c := by
  cases found : w.calls[k]? with
  | none =>
    rw [move_none found]
    exact all
  | some c =>
    rw [move_some found] at moves ⊢
    intro x hx
    rcases List.mem_or_eq_of_mem_set hx with hx | rfl
    · exact all x hx
    · have hc := List.mem_of_getElem? found
      exact moves c hc _ (steps w.engine c) (mem_set_self found) (all c hc)

/-- What holds of all callers that come with a checked solution, and is kept by their moves, holds of all callers. -/
theorem calls_after {P : Call → Prop} (event : Event)
    (begins : ∀ t : Call.Task, (∃ solution, Projects.ofSolution solution = .ok t.projects) →
      P { toTask := t, stage := .begin t })
    (moves : ∀ c ∈ w.calls, ∀ r, Call.Moves w.engine c r → r.2 ∈ (w.after event).calls → P c → P r.2)
    (all : ∀ c ∈ w.calls, P c) : ∀ c ∈ (w.after event).calls, P c := by
  cases event with
  | lookup => exact calls_move Call.moves_lookup moves all
  | wake => exact calls_move Call.moves_wake moves all
  | giveUp => exact calls_move (Call.moves_giveUp _) moves all
  | call solution name =>
    unfold after enter
    dsimp only
    split
    · exact all
    · next checked =>
      intro c hc
      rcases List.mem_append.mp hc with hc | hc
      · exact all c hc
      · rw [List.mem_singleton.mp hc]
        exact begins _ ⟨solution, checked⟩
  | put | evict | invalidate | clear | finish => exact all

theorem projects_move {ps : Projects} {k : Nat} {step : Engine → Call → Engine × Call}
    (moves : ∀ e c, Call.Moves e c (step e c)) (one : ∀ c ∈ w.calls, c.projects = ps) :
    ∀ c ∈ (w.move k step).calls, c.projects = ps := by
  refine calls_move moves (fun c _ r way _ same => ?_) one
  rw [way.frame]
  exact same

/-- All callers come with the projects of a checked solution. -/
theorem checked_after (event : Event)
    (all : ∀ c ∈ w.calls, ∃ solution, Projects.ofSolution solution = .ok c.projects) :
    ∀ c ∈ (w.after event).calls, ∃ solution, Projects.ofSolution solution = .ok c.projects := by
  refine calls_after event (fun _ => id) (fun c _ r way _ checked => ?_) all
  rw [way.frame]
  exact checked

theorem checked_run (events : List Event) :
    ∀ c ∈ (run events).calls, ∃ solution, Projects.ofSolution solution = .ok c.projects := by
  suffices ∀ w : Session, (∀ c ∈ w.calls, ∃ solution, Projects.ofSolution solution = .ok c.projects) →
      ∀ c ∈ (events.foldl after w).calls, ∃ solution, Projects.ofSolution solution = .ok c.projects from
    this {} (by simp)
  induction events with
  | nil => exact fun _ => id
  | cons event rest ih => exact fun w all => ih (w.after event) (checked_after event all)

theorem projects_after {ps : Projects} (within : event.Within ps) (one : ∀ c ∈ w.calls, c.projects = ps) :
    ∀ c ∈ (w.after event).calls, c.projects = ps := by
  cases event with
  | lookup => exact projects_move Call.moves_lookup one
  | wake => exact projects_move Call.moves_wake one
  | giveUp => exact projects_move (Call.moves_giveUp _) one
  | call solution name =>
    intro c hc
    rw [after, enter, show Projects.ofSolution solution = .ok ps from within] at hc
    rcases List.mem_append.mp hc with hc | hc
    · exact one c hc
    · rw [List.mem_singleton.mp hc]
  | put | evict | invalidate | clear | finish => exact one

theorem hashed_after (w : Session) (event : Event) : ∀ i ∈ w.hashed, i ∈ (w.after event).hashed := by
  cases event with
  | lookup => exact hashed_move Call.moves_lookup
  | wake => exact hashed_move Call.moves_wake
  | giveUp => exact hashed_move (Call.moves_giveUp _)
  | call solution name =>
    intro i hi
    obtain ⟨c, hc, mem⟩ := mem_hashed.mp hi
    unfold after enter
    dsimp only
    split
    · exact hi
    · exact mem_hashed.mpr ⟨c, List.mem_append_left _ hc, mem⟩
  | put | evict | invalidate | clear | finish => exact fun _ => id

theorem engine_leadsTo_after (w : Session) (event : Event) : w.engine.LeadsTo (w.after event).engine := by
  cases event with
  | lookup => exact engine_leadsTo_move Call.moves_lookup
  | wake => exact engine_leadsTo_move Call.moves_wake
  | giveUp => exact engine_leadsTo_move (Call.moves_giveUp _)
  | finish tc number => exact .complete tc w.engine number
  | call =>
    unfold after enter
    dsimp only
    split <;> exact .refl _
  | put | evict | invalidate | clear => exact ⟨fun _ => id, id⟩

theorem engine_leadsTo_foldl (w : Session) (events : List Event) :
    w.engine.LeadsTo (events.foldl after w).engine := by
  induction events generalizing w with
  | nil => exact .refl _
  | cons event rest ih => exact (engine_leadsTo_after w event).trans (ih (w.after event))

/-! ### What does not rest on there being one store -/

/-- All that a session keeps to but for the history of its store. -/
structure Fit (tools : Toolchain → Prop) (w : Session) : Prop where
  store : w.store.Sound
  engine : w.engine.Sound tools
  calls : ∀ c ∈ w.calls, c.Sound tools w.hashed w.engine
  builds : ∀ j ∈ w.engine.started, j.inputs ∈ w.hashed

namespace Fit

theorem empty : Fit tools {} where
  store := .empty
  engine := .empty
  calls := by simp
  builds := by simp

theorem wanted (h : w.Fit tools) {i : Job.Inputs} (hi : i ∈ w.hashed) :
    ∃ c ∈ w.calls, Call.Wants tools w.hashed c.toTask c.asked i := by
  obtain ⟨c, hc, asked⟩ := mem_hashed.mp hi
  exact ⟨c, hc, (h.calls c hc).asked i asked⟩

/-- Every build was asked for by a caller. -/
theorem asked_of_started (h : w.Fit tools) : ∀ j ∈ w.engine.started, j.inputs.Asked tools w.hashed := by
  intro j hj
  obtain ⟨c, hc, wants⟩ := h.wanted (h.builds j hj)
  exact wants.asked

theorem withStore (h : w.Fit tools) {s : Store} (sound : s.Sound) : Fit tools { w with store := s } :=
  ⟨sound, h.engine, h.calls, h.builds⟩

theorem withEngine (h : w.Fit tools) {e : Engine} (sound : e.Sound tools) (leads : w.engine.LeadsTo e)
    (started : e.started = w.engine.started) : Fit tools { w with engine := e } where
  store := h.store
  engine := sound
  calls c hc := (h.calls c hc).mono (fun _ => id) leads
  builds j hj := h.builds j (started ▸ hj)

theorem enter (h : w.Fit tools) (solution : Solution) (name : String) : (w.enter solution name).Fit tools := by
  unfold Session.enter
  split
  · exact h
  · next projects checked =>
    dsimp only
    generalize task_eq : (⟨projects, name, w.store⟩ : Call.Task) = task
    have hashed : Session.hashed { w with
        calls := w.calls ++ [{ toTask := task, stage := .begin task }] } = w.hashed := by
      simp [Session.hashed]
    have distinct : task.projects.Distinct := by
      rw [← task_eq]
      exact Projects.distinct_of_ofSolution checked
    have store : task.captured.Sound := by
      rw [← task_eq]
      exact h.store
    refine ⟨h.store, h.engine, fun c hc => ?_, fun j hj => hashed ▸ h.builds j hj⟩
    rw [hashed]
    rcases List.mem_append.mp hc with hc | hc
    · exact h.calls c hc
    · rw [List.mem_singleton.mp hc]
      exact ⟨distinct, store, by simp, by simp, .begin task⟩

theorem move (h : w.Fit tools) {k : Nat} {step : Engine → Call → Engine × Call}
    (moves : ∀ e c, Call.Moves e c (step e c)) (free : Job.Inputs.CollisionFree (w.move k step).hashed) :
    (w.move k step).Fit tools := by
  have more := hashed_move (w := w) (k := k) moves
  cases found : w.calls[k]? with
  | none =>
    rw [move_none found]
    exact h
  | some c =>
    rw [move_some found] at free more ⊢
    -- From here on the step is only known to be one of the moves.
    have way := moves w.engine c
    generalize step w.engine c = r at way free more ⊢
    have asked : ∀ i ∈ r.2.asked, i ∈ Session.hashed { w with engine := r.1, calls := w.calls.set k r.2 } :=
      fun i hi => mem_hashed.mpr ⟨r.2, mem_set_self found, hi⟩
    refine ⟨h.store, way.engine h.engine, fun x hx => ?_, fun j hj => ?_⟩
    · rcases List.mem_or_eq_of_mem_set hx with hx | rfl
      · exact (h.calls x hx).mono more way.leads
      · exact way.sound free h.engine (fun j hj => (h.asked_of_started j hj).mono more) asked
          ((h.calls c (List.mem_of_getElem? found)).mono more (.refl _))
    · rcases way.builds j hj with hj | ⟨new, -⟩
      · exact more _ (h.builds j hj)
      · exact asked _ new

theorem after (h : w.Fit tools) (uses : event.Uses tools)
    (free : Job.Inputs.CollisionFree (w.after event).hashed) : (w.after event).Fit tools := by
  cases event with
  | put path text => exact h.withStore (h.store.put path text)
  | evict path => exact h.withStore (h.store.evict path)
  | invalidate project => exact h.withEngine (h.engine.invalidate project) ⟨fun _ => id, id⟩ rfl
  | clear => exact h.withEngine h.engine.clear ⟨fun _ => id, id⟩ rfl
  | call solution name => exact h.enter solution name
  | lookup => exact h.move Call.moves_lookup free
  | finish tc number =>
    apply h.withEngine (h.engine.complete uses number) (.complete tc w.engine number)
    exact Engine.complete_induction (motive := fun e => e.started = w.engine.started) number rfl
      fun _ _ _ => rfl
  | wake => exact h.move Call.moves_wake free
  | giveUp => exact h.move (Call.moves_giveUp _) free

end Fit

/-! ### The history of the store -/

theorem store_move (w : Session) (k : Nat) (step : Engine → Call → Engine × Call) :
    (w.move k step).store = w.store := by
  unfold move
  split <;> rfl

theorem leadsTo_after (w : Session) (event : Event) : w.store.LeadsTo (w.after event).store := by
  cases event with
  | put path text => exact .put w.store path text
  | evict path => exact .evict w.store path
  | call =>
    unfold after enter
    dsimp only
    split <;> exact .refl w.store
  | lookup | wake | giveUp => rw [after, store_move]
  | invalidate | clear | finish => exact .refl w.store

theorem captures_move {k : Nat} {step : Engine → Call → Engine × Call}
    (moves : ∀ e c, Call.Moves e c (step e c)) :
    (w.move k step).calls.map (·.captured) = w.calls.map (·.captured) := by
  cases found : w.calls[k]? with
  | none => rw [move_none found]
  | some c =>
    rw [move_some found]
    exact map_captured_set found (by rw [(moves w.engine c).frame])

/-- What was captured stays, and whoever comes captures the store. -/
theorem captures_after (w : Session) (event : Event) :
    (w.after event).calls.map (·.captured) = w.calls.map (·.captured) ∨
      (w.after event).calls.map (·.captured) = w.calls.map (·.captured) ++ [w.store] := by
  cases event with
  | lookup => exact .inl (captures_move Call.moves_lookup)
  | wake => exact .inl (captures_move Call.moves_wake)
  | giveUp => exact .inl (captures_move (Call.moves_giveUp _))
  | call solution name =>
    unfold after enter
    dsimp only
    split
    · exact .inl rfl
    · exact .inr (by rw [List.map_append]; rfl)
  | put | evict | invalidate | clear | finish => exact .inl rfl

theorem mem_captures_after (w : Session) (event : Event) :
    ∀ c ∈ (w.after event).calls, c.captured = w.store ∨ ∃ old ∈ w.calls, old.captured = c.captured := by
  intro c hc
  have captured := List.mem_map_of_mem (f := (·.captured)) hc
  rcases captures_after w event with same | more
  · rw [same] at captured
    exact .inr (List.mem_map.mp captured)
  · rw [more] at captured
    rcases List.mem_append.mp captured with old | new
    · exact .inr (List.mem_map.mp old)
    · exact .inl (List.mem_singleton.mp new)

/-! ### Builds and who started them -/

theorem builds_move {k : Nat} {step : Engine → Call → Engine × Call}
    (moves : ∀ e c, Call.Moves e c (step e c))
    (builds : ∀ j ∈ w.engine.started, ∃ c ∈ w.calls, j.inputs ∈ c.asked ∧ j.sequence ∈ c.started) :
    ∀ j ∈ (w.move k step).engine.started, ∃ c ∈ (w.move k step).calls, j.inputs ∈ c.asked ∧ j.sequence ∈ c.started := by
  cases found : w.calls[k]? with
  | none =>
    rw [move_none found]
    exact builds
  | some c =>
    rw [move_some found]
    have way := moves w.engine c
    generalize step w.engine c = r at way ⊢
    intro j hj
    rcases way.builds j hj with hj | asked
    · obtain ⟨x, hx, asked, started⟩ := builds j hj
      rcases mem_set_of_mem found hx with rfl | hx
      · exact ⟨_, mem_set_self found, way.asked _ asked, way.started _ started⟩
      · exact ⟨x, hx, asked, started⟩
    · exact ⟨_, mem_set_self found, asked⟩

theorem builds_after (event : Event)
    (builds : ∀ j ∈ w.engine.started, ∃ c ∈ w.calls, j.inputs ∈ c.asked ∧ j.sequence ∈ c.started) :
    ∀ j ∈ (w.after event).engine.started,
      ∃ c ∈ (w.after event).calls, j.inputs ∈ c.asked ∧ j.sequence ∈ c.started := by
  cases event with
  | lookup => exact builds_move Call.moves_lookup builds
  | wake => exact builds_move Call.moves_wake builds
  | giveUp => exact builds_move (Call.moves_giveUp _) builds
  | call solution name =>
    unfold after enter
    dsimp only
    split
    · exact builds
    · intro j hj
      obtain ⟨c, hc, asked⟩ := builds j hj
      exact ⟨c, List.mem_append_left _ hc, asked⟩
  | finish tc number =>
    have started : (w.engine.complete tc number).started = w.engine.started :=
      Engine.complete_induction (motive := fun e => e.started = w.engine.started) number rfl fun _ _ _ => rfl
    intro j hj
    exact builds j (started ▸ hj)
  | put | evict | invalidate | clear => exact builds

namespace Sound

theorem empty : Sound tools {} where
  store := .empty
  engine := .empty
  calls := by simp
  history := by simp
  captured := by simp
  builds := by simp

theorem fit (h : w.Sound tools) : w.Fit tools where
  store := h.store
  engine := h.engine
  calls := h.calls
  builds j hj := by
    obtain ⟨c, hc, asked, -⟩ := h.builds j hj
    exact mem_hashed.mpr ⟨c, hc, asked⟩

theorem asked_of_started (h : w.Sound tools) : ∀ j ∈ w.engine.started, j.inputs.Asked tools w.hashed :=
  h.fit.asked_of_started

theorem after (h : w.Sound tools) (uses : event.Uses tools)
    (free : Job.Inputs.CollisionFree (w.after event).hashed) : (w.after event).Sound tools := by
  have fit := h.fit.after uses free
  refine ⟨fit.store, fit.engine, fit.calls, ?_, fun c hc => ?_, builds_after event h.builds⟩
  · rcases captures_after w event with same | more
    · rw [same]
      exact h.history
    · rw [more, List.pairwise_append]
      refine ⟨h.history, List.pairwise_singleton .., fun s hs t ht => ?_⟩
      obtain ⟨c, hc, rfl⟩ := List.mem_map.mp hs
      rw [List.mem_singleton.mp ht]
      exact h.captured c hc
  · apply Store.LeadsTo.trans _ (leadsTo_after w event)
    rcases mem_captures_after w event c hc with here | ⟨old, hold, same⟩
    · rw [here]
    · rw [← same]
      exact h.captured old hold

end Sound

theorem hashed_foldl (w : Session) (events : List Event) :
    ∀ i ∈ w.hashed, i ∈ (events.foldl after w).hashed := by
  induction events generalizing w with
  | nil => exact fun _ => id
  | cons event rest ih => exact fun i hi => ih (w.after event) i (hashed_after w event i hi)

/-- What holds at the beginning and is kept by every step between sound sessions holds at the end. -/
theorem run_induction {motive : Session → Prop} {events : List Event}
    (uses : ∀ event ∈ events, event.Uses tools) (free : Job.Inputs.CollisionFree (run events).hashed)
    (start : motive {})
    (step : ∀ before event rest, events = before ++ event :: rest → (run before).Sound tools →
      ((run before).after event).Sound tools →
      (∀ i ∈ ((run before).after event).hashed, i ∈ (run events).hashed) →
      motive (run before) → motive ((run before).after event)) :
    (run events).Sound tools ∧ motive (run events) := by
  suffices ∀ rest before, events = before ++ rest → (run before).Sound tools → motive (run before) →
      (run events).Sound tools ∧ motive (run events) from this events [] rfl .empty start
  intro rest
  induction rest with
  | nil =>
    rintro before whole sound holds
    rw [whole, List.append_nil]
    exact ⟨sound, holds⟩
  | cons event rest ih =>
    intro before whole sound holds
    have next : run (before ++ [event]) = (run before).after event := run_append before [event]
    have more : ∀ i ∈ ((run before).after event).hashed, i ∈ (run events).hashed := by
      intro i hi
      rw [whole, run_append]
      exact hashed_foldl _ rest i hi
    have sound' := sound.after (uses event (by simp [whole])) (free.mono more)
    refine ih (before ++ [event]) (by simp [whole]) ?_ ?_
    · rw [next]
      exact sound'
    · rw [next]
      exact step before event rest whole sound sound' more holds

theorem uses_any (event : Event) : event.Uses fun _ => True := by
  cases event <;> trivial

theorem sound_run {events : List Event} (uses : ∀ event ∈ events, event.Uses tools)
    (free : Job.Inputs.CollisionFree (run events).hashed) : (run events).Sound tools :=
  (run_induction (motive := fun _ => True) uses free trivial fun _ _ _ _ _ _ _ => id).1

end Session

/-! ## A small solution -/

/-- A toolchain that finds nothing in any text. -/
def Toolchain.blank : Toolchain where
  name := "blank"
  parse _ _ := .ok ⟨⟨[], 0⟩, []⟩
  bind project _ _ := .ok ⟨⟨project, []⟩, []⟩

namespace Solution

def app : Project := ⟨"App", [⟨"app"⟩], ["Lib"]⟩

def lib : Project := ⟨"Lib", [⟨"lib"⟩], []⟩

def pair : Solution := ⟨none, [lib, app]⟩

theorem ofSolution_pair : Projects.ofSolution pair = .ok ⟨[lib, app]⟩ := rfl

theorem compilationOrder_pair : Projects.compilationOrder ⟨[lib, app]⟩ "App" = .ok [lib, app] := by
  have above : Projects.find? ⟨[lib, app]⟩ "App" = some app := by decide +kernel
  have below : Projects.find? ⟨[lib, app]⟩ "Lib" = some lib := by decide +kernel
  have references : app.references = ["Lib"] := rfl
  have none : lib.references = [] := rfl
  rw [Projects.compilationOrder, Projects.extend_cons above, references, Projects.extend_cons below, none]
  simp only [Projects.extend_nil]
  rfl

end Solution
end CodeWorkspace
