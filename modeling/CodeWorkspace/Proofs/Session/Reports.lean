import CodeWorkspace.Proofs.Engine.Review
import CodeWorkspace.Proofs.Session.Progress
import CodeWorkspace.Proofs.Session.Transitive
import CodeWorkspace.Proofs.Session.Transparency
import CodeWorkspace.Toolchain.Outline

/-! What a caller is told where a project does not compile. Live snapshots, builds that it joins and builds of its own
may answer its lookups in any mix: it gets as far as the first project of its order whose review fails, and is told all
that is reported there. -/
namespace CodeWorkspace

variable {tc : Toolchain} {hashed : List Job.Inputs}

/-! ## On the way -/

namespace Call

variable {e f : Engine} {c : Call} {t : Task} {store : Store} {order taken : List Project} {q : Request}
  {i : Job.Inputs} {asked : List Job.Inputs} {result : Except WorkspaceError Snapshot}

theorem Settles.mono (h : Settles e i result) (leads : e.LeadsTo f) : Settles f i result := by
  obtain ⟨j, hj, same, ended⟩ := h
  exact ⟨j, leads.started j hj, same, leads.outcome ended⟩

/-- For each lookup the snapshot of a build that ended well was given. -/
def Served (e : Engine) (asked : List Job.Inputs) (built : List (String × Snapshot)) : Prop :=
  List.Forall₂ (fun i x => x.1 = i.project ∧ Settles e i (.ok x.2)) asked built

theorem Served.mono {built : List (String × Snapshot)} (h : Served e asked built) (leads : e.LeadsTo f) :
    Served f asked built :=
  h.imp fun _ _ given => ⟨given.1, given.2.mono leads⟩

theorem Served.projects {built : List (String × Snapshot)} (h : Served e asked built) :
    asked.map (·.project) = built.map (·.1) := by
  induction h with
  | nil => rfl
  | cons given _ ih => rw [List.map_cons, List.map_cons, ih, given.1]

/-- A request that was given what the reviews tell of the projects taken, none of which fails. -/
structure Course (tc : Toolchain) (e : Engine) (store : Store) (order taken : List Project)
    (asked : List Job.Inputs) (q : Request) : Prop where
  along : q.Along store order taken
  steady : q.Steady
  served : Served e asked q.built
  reviewed : q.built.map Request.reviewed = (reviews tc store taken).reverse
  clean : ∀ r ∈ reviews tc store taken, r.fails = false

namespace Course

theorem mono (h : Course tc e store order taken asked q) (leads : e.LeadsTo f) :
    Course tc f store order taken asked q :=
  ⟨h.along, h.steady, h.served.mono leads, h.reviewed, h.clean⟩

theorem advance (h : Course tc e store order taken asked q) (needs : q.demand = .needs i) {p : Project}
    {rest : List (Project × List Document)} (remaining : q.remaining = (p, i.documents) :: rest)
    (name : i.project = p.name) {s : Snapshot} (settles : Settles e i (.ok s))
    (tells : (Review.ofProject tc store (reviews tc store taken).reverse p).Tells (.ok s)) :
    Course tc e store order (taken ++ [p]) (i :: asked) (q.advance s) := by
  cases tells with
  | made clean symbols diagnostics =>
    refine ⟨h.along.advance remaining s, h.steady.advance needs s, ?_, ?_, ?_⟩
    · rw [Request.built_advance remaining]
      exact .cons ⟨name.symm, settles⟩ h.served
    · have here : Request.reviewed (p.name, s) = .ofProject tc store (reviews tc store taken).reverse p := by
        rw [Request.reviewed, symbols, diagnostics]
        rfl
      rw [Request.built_advance remaining, List.map_cons, reviews_concat, List.reverse_append, h.reviewed, here]
      rfl
    · rw [reviews_concat]
      intro r hr
      rcases List.mem_append.mp hr with before | here
      · exact h.clean r before
      · rw [List.mem_singleton.mp here, clean]

end Course

/-- A caller that goes by the reviews of its order. -/
inductive Stage.Reviewed (tc : Toolchain) (e : Engine) (store : Store) (order : List Project)
    (asked : List Job.Inputs) : Stage → Prop where
  | asks {taken : List Project} {i : Job.Inputs} {q : Request} (course : Course tc e store order taken asked q)
      (needs : q.demand = .needs i) : Reviewed tc e store order asked (.asks i q)
  | waits {taken : List Project} {before : List Job.Inputs} {number : Nat} {i : Job.Inputs} {q : Request}
      (last : asked = i :: before) (course : Course tc e store order taken before q) (needs : q.demand = .needs i) :
      Reviewed tc e store order asked (.waits number i q)
  | returned {q : Request} {s : Snapshot} (course : Course tc e store order order asked q)
      (ends : q.demand = .finished (.ok s)) : Reviewed tc e store order asked (.returned q.built (.ok s))
  | failed {taken : List Project} {before : List Job.Inputs} {i : Job.Inputs} {q : Request} {p : Project}
      {rest : List (Project × List Document)} {r : Review} (last : asked = i :: before)
      (course : Course tc e store order taken before q) (remaining : q.remaining = (p, i.documents) :: rest)
      (review : r = .ofProject tc store (reviews tc store taken).reverse p) (reviewed : i.IsReviewed tc r)
      (fails : r.fails = true) :
      Reviewed tc e store order asked (.returned q.built (.error (.compilation r.project r.diagnostics)))
  | late {built : List (String × Snapshot)} {project : String} {timeout : Duration} :
      Reviewed tc e store order asked (.returned built (.error (.buildTimeout project timeout)))

theorem Stage.Reviewed.mono {stage : Stage} (h : stage.Reviewed tc e store order asked) (leads : e.LeadsTo f) :
    stage.Reviewed tc f store order asked := by
  cases h with
  | asks course needs => exact .asks (course.mono leads) needs
  | waits last course needs => exact .waits last (course.mono leads) needs
  | returned course ends => exact .returned (course.mono leads) ends
  | failed last course remaining review reviewed fails =>
    exact .failed last (course.mono leads) remaining review reviewed fails
  | late => exact .late

theorem Stage.reviewed_ofRequest (course : Course tc e store order taken asked q) :
    (Stage.ofRequest q).Reviewed tc e store order asked := by
  rcases course.steady.demand with ⟨i, needs⟩ | ⟨s, ends⟩
  · rw [ofRequest, needs]
    exact .asks course needs
  · have split := course.along.order
    rw [(Request.demand_eq_finished_ok ends).1, List.map_nil, List.append_nil] at split
    subst split
    rw [ofRequest, ends]
    exact .returned course ends

/-- Whatever build settles what is needed, the review tells what it comes to. -/
theorem Stage.reviewed_receive (robust : tc.IsRobust) (course : Course tc e store order taken asked q)
    (needs : q.demand = .needs i) (settles : Settles e i result)
    (same : unnumbered result = unnumbered (Job.run tc ⟨i, 0⟩)) :
    (Stage.receive q result).Reviewed tc e store order (i :: asked) := by
  obtain ⟨p, rest, remaining, reviewed⟩ := Request.isReviewed_of_needs robust course.along course.reviewed needs
  have tells := (reviewed.told 0).congr same
  cases result with
  | error failure =>
    cases tells with
    | failed fails => exact .failed rfl course remaining rfl reviewed fails
  | ok s => exact Stage.reviewed_ofRequest (course.advance needs remaining reviewed.project settles tells)

/-- A caller with nothing at fault goes by the reviews. -/
def Stage.GoesBy (tc : Toolchain) (e : Engine) (t : Task) (asked : List Job.Inputs) (stage : Stage) : Prop :=
  t.projects.Workable t.captured t.name →
    ∃ order, t.projects.compilationOrder t.name = .ok order ∧ stage.Reviewed tc e t.captured order asked

theorem Stage.goesBy_begin (linked : t.projects.Linked) (distinct : t.projects.Distinct) :
    (Stage.begin t).GoesBy tc e t [] := by
  intro workable
  unfold Stage.begin
  split
  · next failed =>
    exact absurd workable ((Request.fault_of_ofStore linked distinct failed).not_workable linked distinct)
  · next q made =>
    obtain ⟨order, ordered, none, along⟩ := Request.along_of_ofStore made
    have served : Served e [] q.built := by
      rw [none]
      exact .nil
    have reviewed : q.built.map Request.reviewed = (reviews tc t.captured []).reverse := by
      rw [none]
      rfl
    refine ⟨order, ordered, Stage.reviewed_ofRequest ⟨along, ?_, served, reviewed, ?_⟩⟩
    · exact Request.steady_of_ofStore linked distinct made
    · exact fun r hr => absurd hr List.not_mem_nil

/-- The engine `f` may be any that knows of the same builds. -/
theorem Moves.goesBy {r : Engine × Call} (h : Moves e c r) (leads : e.LeadsTo f) (robust : tc.IsRobust)
    (free : Job.Inputs.CollisionFree hashed) (tell : Job.Inputs.ImprintsTell hashed) (engine : e.Sound (· = tc))
    (builds : ∀ j ∈ e.started, j.inputs.Asked (· = tc) hashed) (mem : ∀ i ∈ r.2.asked, i ∈ hashed)
    (sound : c.Sound (· = tc) hashed e) (goes : c.stage.GoesBy tc f c.toTask c.asked) :
    r.2.stage.GoesBy tc f r.2.toTask r.2.asked := by
  rw [h.frame]
  intro workable
  obtain ⟨order, ordered, stage⟩ := goes workable
  refine ⟨order, ordered, ?_⟩
  have known := sound.stage
  cases h with
  | stays => exact stage
  | @hit i q s stats at_ live same =>
    rw [at_] at stage known
    cases stage with
    | asks course needs =>
      obtain ⟨way, -⟩ := known
      have asked := (way.wants needs (mem i List.mem_cons_self)).asked
      have settles := settles_of_liveAt engine live same
      exact Stage.reviewed_receive robust course needs (settles.mono leads)
        (unnumbered_of_settles free tell engine builds asked settles)
  | joins at_ | starts at_ =>
    rw [at_] at stage
    cases stage with
    | asks course needs => exact .waits rfl course needs
  | @wakes number i q result at_ ended =>
    rw [at_] at stage known
    cases stage with
    | waits last course needs =>
      cases known with
      | waits _ _ looked build =>
        obtain ⟨j, hj, print, rfl⟩ := build
        have settles : Settles e i result := ⟨j, hj, print, ended⟩
        rw [last]
        exact Stage.reviewed_receive robust course needs (settles.mono leads)
          (unnumbered_of_settles free tell engine builds (sound.asked i looked).asked settles)
  | givesUp => exact .late

/-! ## What a snapshot carries -/

namespace Given

variable {built : List (String × Snapshot)} {s x : Snapshot}

theorem diagnostics_eq (h : Given (· = tc) hashed e c order built s) (sound : c.Sound (· = tc) hashed e)
    (names : c.asked.map (·.project) = built.map (·.1)) (free : Job.Inputs.CollisionFree hashed)
    (tell : Job.Inputs.ImprintsTell hashed) (way : s.Reaches x) {y : String × Snapshot} (mem : y ∈ built)
    (same : x.project = y.2.project) : x.diagnostics = y.2.diagnostics := by
  have holds := (h.held y mem).2
  have known := sound.known_of_reaches free h.holds.genuine h.holds.known way
  have digest := h.digest_eq sound.distinct names known holds.known same
  have alike := (Snapshot.genuine_of_reaches h.holds.genuine way).unnumbered_eq free tell holds.genuine digest
  rw [← x.diagnostics_unnumbered, alike, Snapshot.diagnostics_unnumbered]

/-- All that is below a snapshot carries what the reviews report. -/
theorem diagnostics_of_reviewed (h : Given (· = tc) hashed e c order built s) (sound : c.Sound (· = tc) hashed e)
    (names : c.asked.map (·.project) = built.map (·.1)) (free : Job.Inputs.CollisionFree hashed)
    (tell : Job.Inputs.ImprintsTell hashed)
    (reviewed : built.map Request.reviewed = (reviews tc c.captured order).reverse) :
    s.transitive.map (fun x => (x.project, x.diagnostics)) = (reviews tc c.captured order).map Review.entry ∧
      ∀ x, s.Reaches x → (x.project, x.diagnostics) ∈ (reviews tc c.captured order).map Review.entry := by
  have told {y : String × Snapshot} (mem : y ∈ built) :
      (y.2.project, y.2.diagnostics) = (Request.reviewed y).entry := Prod.ext (h.held y mem).1 rfl
  constructor
  · rw [h.map_transitive sound free, List.map_congr_left fun y => told, ← List.reverse_eq_iff.mpr reviewed,
      List.map_reverse, List.map_map]
    · rfl
    · intro x hx y hy same
      have way := Snapshot.reaches_of_mem_transitive hx
      exact Prod.ext same (h.diagnostics_eq sound names free tell way hy same)
  · intro x way
    obtain ⟨y, mem, same⟩ := h.exists_given_of_known names
      (sound.known_of_reaches free h.holds.genuine h.holds.known way)
    rw [same, h.diagnostics_eq sound names free tell way mem same, told mem]
    have : Request.reviewed y ∈ (reviews tc c.captured order).reverse := by
      rw [← reviewed]
      exact List.mem_map_of_mem mem
    exact List.mem_map_of_mem (List.mem_reverse.mp this)

end Given

/-! ## What is counted -/

theorem engine_lookup (e : Engine) (c : Call) :
    (c.lookup e).1 = e ∨ ∃ i ∈ (c.lookup e).2.asked, (c.lookup e).1 = (e.lookup i).2 := by
  unfold lookup
  split
  · next i q _ =>
    refine .inr ⟨i, ?_⟩
    rcases e.lookup i with ⟨s | number, e'⟩ <;> exact ⟨List.mem_cons_self, rfl⟩
  · exact .inl rfl

theorem engine_wake (e : Engine) (c : Call) : (c.wake e).1 = e := by
  unfold wake
  split
  · split <;> rfl
  · rfl

theorem counts_giveUp (timeout : Duration) (e : Engine) (c : Call) :
    (c.giveUp timeout e).1.started = e.started ∧ (c.giveUp timeout e).1.cache.stats.hits = e.cache.stats.hits := by
  unfold giveUp
  split <;> exact ⟨rfl, rfl⟩

end Call

/-! ## Whole sessions -/

namespace Session

variable {tools : Toolchain → Prop} {w : Session} {k : Nat} {c : Call} {event : Event}

theorem goesBy_run (robust : tc.IsRobust) {events : List Event} (one : ∀ event ∈ events, event.Uses (· = tc))
    (free : Job.Inputs.CollisionFree (run events).hashed) (tell : Job.Inputs.ImprintsTell (run events).hashed) :
    (run events).Sound (· = tc) ∧
      ∀ c ∈ (run events).calls, c.stage.GoesBy tc (run events).engine c.toTask c.asked := by
  apply run_induction (motive := fun w => ∀ c ∈ w.calls, c.stage.GoesBy tc w.engine c.toTask c.asked) one free (by simp)
  intro front event _ _ sound _ sub goes
  have more := hashed_after (run front) event
  have leads := engine_leadsTo_after (run front) event
  refine calls_after event (fun t checked => ?_) (fun c hc r way mem goes => ?_) fun c hc workable => ?_
  · obtain ⟨solution, checked⟩ := checked
    exact Call.Stage.goesBy_begin (Projects.linked_of_ofSolution checked) (Projects.distinct_of_ofSolution checked)
  · exact way.goesBy leads robust (free.mono sub) (tell.mono sub) sound.engine
      (fun j hj => (sound.asked_of_started j hj).mono more) (fun i hi => mem_hashed.mpr ⟨r.2, mem, hi⟩)
      ((sound.calls c hc).mono more (.refl _)) goes
  · obtain ⟨order, ordered, stage⟩ := goes c hc workable
    exact ⟨order, ordered, stage.mono leads⟩

/-! ### Steps of one caller -/

/-- Whose step an event is. -/
def Event.caller? : Event → Option Nat
  | .lookup k | .wake k | .giveUp k _ => some k
  | .put .. | .evict _ | .invalidate _ | .clear | .call .. | .finish .. => none

theorem after_of_caller (steps : event.caller? = some k) :
    ∃ step, (∀ e c, Call.Moves e c (step e c)) ∧ ∀ w : Session, w.after event = w.move k step := by
  cases event with
  | lookup => cases steps; exact ⟨_, Call.moves_lookup, fun _ => rfl⟩
  | wake => cases steps; exact ⟨_, Call.moves_wake, fun _ => rfl⟩
  | giveUp => cases steps; exact ⟨_, Call.moves_giveUp _, fun _ => rfl⟩
  | put | evict | invalidate | clear | call | finish => cases steps

/-- Callers stay, and so does the record of what they looked up. -/
theorem asked_after (event : Event) (found : w.calls[k]? = some c) :
    ∃ d, (w.after event).calls[k]? = some d ∧ ∀ i ∈ c.asked, i ∈ d.asked := by
  have move {m : Nat} {step : Engine → Call → Engine × Call} (moves : ∀ e c, Call.Moves e c (step e c)) :
      ∃ d, (w.move m step).calls[k]? = some d ∧ ∀ i ∈ c.asked, i ∈ d.asked := by
    by_cases here : m = k
    · subst here
      exact ⟨_, calls_move_self found step, (moves w.engine c).asked⟩
    · refine ⟨c, ?_, fun _ => id⟩
      cases there : w.calls[m]? with
      | none => rw [move_none there, found]
      | some c' => rw [move_some there, List.getElem?_set_ne here, found]
  cases event with
  | lookup => exact move Call.moves_lookup
  | wake => exact move Call.moves_wake
  | giveUp => exact move (Call.moves_giveUp _)
  | call =>
    unfold after enter
    dsimp only
    split
    · exact ⟨c, found, fun _ => id⟩
    · exact ⟨c, by rw [List.getElem?_append_left (List.getElem?_eq_some_iff.mp found).1, found], fun _ => id⟩
  | put | evict | invalidate | clear | finish => exact ⟨c, found, fun _ => id⟩

theorem asked_foldl (events : List Event) (found : w.calls[k]? = some c) :
    ∃ d, (events.foldl after w).calls[k]? = some d ∧ ∀ i ∈ c.asked, i ∈ d.asked := by
  induction events generalizing w c with
  | nil => exact ⟨c, found, fun _ => id⟩
  | cons event rest ih =>
    obtain ⟨d, found, sub⟩ := asked_after event found
    obtain ⟨d', found, sub'⟩ := ih found
    exact ⟨d', found, fun i hi => sub' i (sub i hi)⟩

/-- A step of a caller counts as a build or a hit only where it looks something up. -/
theorem counted_after (steps : event.caller? = some k) :
    ((w.after event).engine.started = w.engine.started ∧
      (w.after event).engine.cache.stats.hits = w.engine.cache.stats.hits) ∨
    ∃ d i, (w.after event).calls[k]? = some d ∧ i ∈ d.asked ∧ (w.after event).engine = (w.engine.lookup i).2 := by
  cases found : w.calls[k]? with
  | none =>
    obtain ⟨step, -, moved⟩ := after_of_caller steps
    rw [moved, move_none found]
    exact .inl ⟨rfl, rfl⟩
  | some c =>
    cases event with
    | lookup =>
      cases steps
      have here : (w.after (.lookup k)).calls[k]? = some (c.lookup w.engine).2 := calls_move_self found _
      rw [here, after, move_some found]
      rcases c.engine_lookup w.engine with quiet | ⟨i, mem, looked⟩
      · exact .inl (by simp only [quiet, and_self])
      · exact .inr ⟨_, i, rfl, mem, looked⟩
    | wake =>
      cases steps
      rw [after, move_some found]
      exact .inl (by simp only [Call.engine_wake, and_self])
    | giveUp _ timeout =>
      cases steps
      rw [after, move_some found]
      exact .inl (c.counts_giveUp timeout w.engine)
    | put | evict | invalidate | clear | call | finish => cases steps

theorem counted_run {events : List Event} (found : (run events).calls[k]? = some c) {front rest : List Event}
    (split : events = front ++ event :: rest) (steps : event.caller? = some k) :
    (((run front).after event).engine.started = (run front).engine.started ∧
      ((run front).after event).engine.cache.stats.hits = (run front).engine.cache.stats.hits) ∨
    ∃ i ∈ c.asked, ((run front).after event).engine = ((run front).engine.lookup i).2 := by
  rcases counted_after (w := run front) steps with quiet | ⟨d, i, there, mem, looked⟩
  · exact .inl quiet
  · obtain ⟨d', found', sub⟩ := asked_foldl rest there
    have whole : run events = rest.foldl after ((run front).after event) := by rw [split, run_append]; rfl
    rw [← whole, found] at found'
    cases found'
    exact .inr ⟨i, sub i mem, looked⟩

/-- A caller stops at the project of a review. -/
structure StopsAt (events : List Event) (k : Nat) (c : Call) (before : List Review) (r : Review) : Prop where
  asked : c.asked.reverse.map (·.project) = (before ++ [r]).map (·.project)
  served : ∃ built result, c.stage = .returned built result ∧ Call.Served (run events).engine c.asked.tail built
  /-- Of what the caller did, nothing else counts as a build or a hit. -/
  counted : ∀ front event rest, events = front ++ event :: rest → event.caller? = some k →
    (((run front).after event).engine.started = (run front).engine.started ∧
      ((run front).after event).engine.cache.stats.hits = (run front).engine.cache.stats.hits) ∨
    ∃ i ∈ c.asked, ((run front).after event).engine = ((run front).engine.lookup i).2
  /-- Nor does what the caller did, or had built, change what is live of the project. -/
  live : ∀ front event rest, events = front ++ event :: rest →
    (event.caller? = some k ∨ ∃ tool, ∃ number ∈ c.started, event = .finish tool number) →
      ((run front).after event).engine.cache.liveAt (projectKey r.project) =
        (run front).engine.cache.liveAt (projectKey r.project)

section Stops

variable {events : List Event} {order taken : List Project} {before : List Job.Inputs} {i : Job.Inputs} {q : Request}
  {p : Project} {rest : List (Project × List Document)} {r : Review}

/-- A build that fails leaves the project as it is, and all others are of other projects. -/
theorem liveAt_finish_of_asked (course : Call.Course tc w.engine c.captured order taken before q)
    (keys : (order.map (projectKey ·.name)).Nodup) (remaining : q.remaining = (p, i.documents) :: rest)
    (name : r.project = p.name) (reviewed : i.IsReviewed tc r) (fails : r.fails = true) (e : Engine) {j : Job}
    (asked : j.inputs ∈ i :: before) :
    (e.finish tc j).cache.liveAt (projectKey r.project) = e.cache.liveAt (projectKey r.project) := by
  obtain ⟨inputs, number⟩ := j
  rcases List.mem_cons.mp asked with rfl | old
  · have told := reviewed.told number
    generalize made : Job.run tc ⟨inputs, number⟩ = result at told
    cases told with
    | failed => exact Engine.liveAt_finish_of_error e made _
    | made clean => cases fails.symm.trans clean
  · apply Engine.liveAt_finish_of_ne
    have given : inputs.project ∈ q.built.map (·.1) := by
      rw [← course.served.projects]
      exact List.mem_map_of_mem old
    obtain ⟨x, hx, same⟩ := List.mem_map.mp given
    have apart := (course.along.key_ne keys remaining).1 x hx
    rw [same, ← name] at apart
    exact apart

theorem stopsAt_of_failed (one : ∀ event ∈ events, event.Uses (· = tc)) (sound : (run events).Sound (· = tc))
    (found : (run events).calls[k]? = some c) (ordered : c.projects.compilationOrder c.name = .ok order)
    {result : Except WorkspaceError Snapshot} (stage : c.stage = .returned q.built result)
    (last : c.asked = i :: before) (course : Call.Course tc (run events).engine c.captured order taken before q)
    (remaining : q.remaining = (p, i.documents) :: rest) (name : r.project = p.name) (reviewed : i.IsReviewed tc r)
    (fails : r.fails = true) : StopsAt events k c (reviews tc c.captured taken) r where
  asked := by
    rw [last, List.reverse_cons, List.map_append, List.map_append, project_reviews, List.map_reverse,
      course.served.projects, course.along.names, List.reverse_reverse, List.map_cons, reviewed.project]
    rfl
  served := ⟨q.built, result, stage, by rw [last]; exact course.served⟩
  counted _ _ _ split steps := counted_run found split steps
  live front event rest split whose := by
    rcases whose with steps | ⟨tool, number, mem, rfl⟩
    · obtain ⟨step, moves, moved⟩ := after_of_caller steps
      rw [moved]
      exact liveAt_move moves _
    · obtain rfl : tool = tc := one (.finish tool number) (by simp [split])
      have hc := List.mem_of_getElem? found
      obtain ⟨j, hj, own, asked⟩ := (sound.calls c hc).started number mem
      have keys := Projects.keys_nodup_of_compilationOrder (sound.calls c hc).distinct ordered
      refine Engine.complete_induction (motive := fun e => e.cache.liveAt _ = (run front).engine.cache.liveAt _)
        number rfl fun j' running same => ?_
      have leads := engine_leadsTo_foldl (run front) (.finish tool number :: rest)
      rw [← run_append, ← split] at leads
      have there := leads.started j' (Engine.mem_running.mp running).1
      cases sound.engine.job_eq there hj (same.trans own.symm)
      rw [last] at asked
      exact liveAt_finish_of_asked course keys remaining name reviewed fails _ asked

end Stops

theorem canAnswer_of_reviewed (sound : w.Sound tools) (tool : tools tc) (found : w.calls[k]? = some c)
    {store : Store} {order : List Project} (stage : c.stage.Reviewed tc w.engine store order c.asked)
    (unanswered : c.answer? = none) : w.CanAnswer tc k := by
  have known := (sound.calls c (List.mem_of_getElem? found)).stage
  have pending {built : List (String × Snapshot)} {result : Except WorkspaceError Snapshot}
      (returned : c.stage = .returned built result) : False := by
    rw [Call.answer?_eq_some.mpr ⟨built, returned⟩] at unanswered
    cases unanswered
  generalize at_ : c.stage = now at stage known
  cases stage with
  | asks course needs =>
    apply answerable_of_steady tool k course.steady w c sound.engine found
    rw [at_, Call.Stage.ofRequest, needs]
  | waits last course needs =>
    cases known with
    | waits _ _ _ build =>
      obtain ⟨j, hj, -, rfl⟩ := build
      have further (s : Snapshot) := answerable_of_steady tool k (course.steady.advance needs s)
      exact canAnswer_of_waits tool further sound.engine found hj at_
  | returned | failed | late => exact (pending at_).elim

/-- A caller with nothing at fault can always be answered; and unless it gives up it is given a snapshot if and only if
no review of its order fails, which carries what they report, and otherwise is told the reports of the first that
fails, where it stops. -/
theorem answered_by_reviews (robust : tc.IsRobust) (events : List Event) (one : ∀ event ∈ events, event.Uses (· = tc))
    (apart : Path.Apart (written events)) (free : Job.Inputs.CollisionFree (run events).hashed)
    (found : (run events).calls[k]? = some c)
    (workable : c.projects.Workable c.captured c.name) :
    ∃ order, c.projects.compilationOrder c.name = .ok order ∧
      (c.answer? = none → (run events).CanAnswer tc k) ∧
      ∀ result, c.answer? = some result → (∀ project timeout, result ≠ .error (.buildTimeout project timeout)) →
        ((∃ s, result = .ok s) ↔ ∀ r ∈ reviews tc c.captured order, r.fails = false) ∧
        (∀ s, result = .ok s →
          s.transitive.map (fun t => (t.project, t.diagnostics)) = (reviews tc c.captured order).map Review.entry ∧
            ∀ t, s.Reaches t → (t.project, t.diagnostics) ∈ (reviews tc c.captured order).map Review.entry) ∧
        ∀ before r after, reviews tc c.captured order = before ++ r :: after → (∀ x ∈ before, x.fails = false) →
          r.fails = true → result = .error (.compilation r.project r.diagnostics) ∧ StopsAt events k c before r := by
  have tell := (sound_run one free).imprintsTell (stocked_run events) apart
  obtain ⟨sound, goes⟩ := goesBy_run robust one free tell
  have hc := List.mem_of_getElem? found
  obtain ⟨order, ordered, stage⟩ := goes c hc workable
  refine ⟨order, ordered, canAnswer_of_reviewed sound rfl found stage, fun result answer inTime => ?_⟩
  obtain ⟨built, returned⟩ := Call.answer?_eq_some.mp answer
  rw [returned] at stage
  cases stage with
  | returned course ends =>
    refine ⟨⟨fun _ => course.clean, fun _ => ⟨_, rfl⟩⟩, fun s same => ?_, fun before r after split _ fails => ?_⟩
    · cases same
      obtain ⟨order', given⟩ := (sound.calls c hc).given returned
      cases ordered.symm.trans given.ordered
      exact given.diagnostics_of_reviewed (sound.calls c hc) course.served.projects free tell course.reviewed
    · have clean := course.clean r (by simp [split])
      cases fails.symm.trans clean
  | @failed taken looked i q p rest r last course remaining review reviewed fails =>
    have whole := course.along.order
    rw [remaining, List.map_cons] at whole
    obtain ⟨more, split⟩ := reviews_split tc c.captured taken p (rest.map (·.1))
    rw [whole, ← review] at split
    refine ⟨⟨fun made => ?_, fun clean => ?_⟩, fun s same => ?_, fun before r' after split' clean fails' => ?_⟩
    · obtain ⟨s, same⟩ := made
      cases same
    · have none := clean r (by simp [split])
      cases fails.symm.trans none
    · cases same
    · obtain ⟨rfl, rfl⟩ := Review.first_eq (split.symm.trans split') course.clean clean fails fails'
      have name : r.project = p.name := by
        rw [review]
        rfl
      exact ⟨rfl, stopsAt_of_failed one sound found ordered returned last course remaining name reviewed fails⟩
  | late => exact absurd rfl (inTime _ _)

/-- The second caller finds the library as the first one had it built, and waits with it for the application, which has
a block that is never closed. -/
def unclosed : List Event :=
  [.put ⟨"lib"⟩ "class A;", .put ⟨"app"⟩ "class B \x7b", .call .pair "App", .lookup 0, .finish .outline 1, .wake 0,
    .lookup 0, .call .pair "App", .lookup 1, .lookup 1, .finish .outline 2, .wake 1]

theorem answered_by_reviews_unclosed :
    Toolchain.outline.IsRobust ∧ (∀ event ∈ unclosed, event.Uses (· = .outline)) ∧
      Path.Apart (written unclosed) ∧ Job.Inputs.CollisionFree (run unclosed).hashed ∧
      ∃ c, (run unclosed).calls[1]? = some c ∧ c.projects.Workable c.captured c.name ∧
        ∃ known r, r.project = "App" ∧ r.diagnostics.map (·.code) = [some "Q0002"] ∧
          c.answer? = some (.error (.compilation r.project r.diagnostics)) ∧ StopsAt unclosed 1 c known r := by
  have one : ∀ event ∈ unclosed, event.Uses (· = .outline) := by simp [unclosed, Event.Uses]
  have apart : Path.Apart (written unclosed) := by decide +kernel
  have free : Job.Inputs.CollisionFree (run unclosed).hashed := by
    simp only [run, unclosed, List.foldl, after_call Solution.ofSolution_pair Solution.compilationOrder_pair]
    decide +kernel
  let store := (Store.put {} ⟨"lib"⟩ "class A;").put ⟨"app"⟩ "class B \x7b"
  let lib := Review.ofProject .outline store [] Solution.lib
  let app := Review.ofProject .outline store [lib] Solution.app
  have told : ((run unclosed).calls[1]?.any fun c =>
      c.projects = ⟨[Solution.lib, Solution.app]⟩ ∧ c.name = "App" ∧ c.captured = store ∧
        c.answer?.map (·.map fun _ => ()) = some (.error (.compilation app.project app.diagnostics))) = true := by
    simp only [run, unclosed, List.foldl, after_call Solution.ofSolution_pair Solution.compilationOrder_pair]
    decide +kernel
  obtain ⟨c, found, facts⟩ := (Option.any_eq_true ..).mp told
  obtain ⟨projects, name, captured, failed⟩ := of_decide_eq_true facts
  obtain ⟨result, answer, compiled⟩ := Option.map_eq_some_iff.mp failed
  have inTime : ∀ project timeout, result ≠ .error (.buildTimeout project timeout) := by
    rintro project timeout rfl
    cases compiled
  have workable : c.projects.Workable c.captured c.name := by
    have whole : store.absent? ([Solution.lib, Solution.app].flatMap (·.documents)) = none := by decide +kernel
    have made : Request.ofStore ⟨[Solution.lib, Solution.app]⟩ store "App" = _ :=
      Request.ofStore_eq Solution.compilationOrder_pair
    rw [whole] at made
    rw [projects, name, captured]
    exact Request.workable_of_ofStore (Projects.linked_of_ofSolution Solution.ofSolution_pair)
      (Projects.distinct_of_ofSolution Solution.ofSolution_pair) made
  obtain ⟨order, ordered, -, answered⟩ :=
    answered_by_reviews Toolchain.isRobust_outline unclosed one apart free found workable
  rw [projects, name, Solution.compilationOrder_pair] at ordered
  cases ordered
  obtain ⟨-, -, stops⟩ := answered result answer inTime
  rw [captured] at stops
  obtain ⟨rfl, stop⟩ := stops [lib] app [] rfl (by decide +kernel) (by decide +kernel)
  exact ⟨Toolchain.isRobust_outline, one, apart, free, c, found, workable, [lib], app, rfl, by decide +kernel, answer,
    stop⟩

/-- The second caller is given a snapshot, though its own document has a block that is never closed. -/
theorem lookalike_hides_reports :
    Toolchain.outline.IsRobust ∧ (∀ event ∈ lookalike, event.Uses (· = .outline)) ∧
      Job.Inputs.CollisionFree (run lookalike).hashed ∧
      ∃ c, (run lookalike).calls[1]? = some c ∧ c.projects.Workable c.captured c.name ∧
        ∃ order, c.projects.compilationOrder c.name = .ok order ∧ (∃ s, c.answer? = some (.ok s)) ∧
          ∃ r ∈ reviews .outline c.captured order, r.fails = true := by
  obtain ⟨c, found, projects, name, captured, s, answer⟩ := answered_lookalike
  have checked := Solution.ofSolution_listing .odd
  have workable : c.projects.Workable c.captured c.name := by
    have whole : lookalikes.absent? ([Solution.sole .odd].flatMap (·.documents)) = none := by decide +kernel
    have made : Request.ofStore ⟨[Solution.sole .odd]⟩ lookalikes "Lib" = _ :=
      Request.ofStore_eq (Solution.compilationOrder_listing .odd)
    rw [whole] at made
    rw [projects, name, captured]
    exact Request.workable_of_ofStore (Projects.linked_of_ofSolution checked)
      (Projects.distinct_of_ofSolution checked) made
  refine ⟨Toolchain.isRobust_outline, uses_lookalike, collisionFree_lookalike, c, found, workable,
    [Solution.sole .odd], ?_, ⟨s, answer⟩,
    Review.ofProject .outline lookalikes [] (Solution.sole .odd), ?_, by decide +kernel⟩
  · rw [projects, name, Solution.compilationOrder_listing]
  · rw [captured]
    exact List.mem_singleton.mpr rfl

end Session
end CodeWorkspace
