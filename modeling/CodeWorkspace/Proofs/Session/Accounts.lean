import CodeWorkspace.Proofs.Engine.Accounts
import CodeWorkspace.Proofs.Session.Stores
import CodeWorkspace.Workspace

/-! The counters of a cache against what its callers did: all lookups are counted, whoever made them, and a caller that
has its snapshot made one for each project in the compilation order. -/
namespace CodeWorkspace

namespace Call

def Stage.waiting : Stage → Nat
  | .waits .. => 1
  | .asks .. | .returned .. => 0

theorem Stage.waiting_ofRequest (q : Request) : (ofRequest q).waiting = 0 := by
  unfold ofRequest
  split <;> rfl

theorem Stage.waiting_receive (q : Request) (result : Except WorkspaceError Snapshot) :
    (receive q result).waiting = 0 := by
  cases result with
  | error => rfl
  | ok s => exact waiting_ofRequest (q.advance s)

theorem Stage.waiting_begin (t : Task) : (begin t).waiting = 0 := by
  unfold begin
  split
  · rfl
  · exact waiting_ofRequest _

/-! ## Steps of a caller -/

/-- The ledger of an engine where others made so many lookups, and so many of them wait. -/
def Books (lookups waiting : Nat) (x : Engine × Call) : Prop :=
  x.1.Ledger (lookups + x.2.asked.length) (waiting + x.2.stage.waiting)

namespace Books

variable {e : Engine} {c : Call} {lookups waiting : Nat}

theorem lookup (h : Books lookups waiting (e, c)) : Books lookups waiting (c.lookup e) := by
  unfold Call.lookup
  split
  · next i q stage =>
    rw [Books, stage] at h
    cases found : e.lookup i with
    | mk answer e' =>
      cases answer with
      | inl s =>
        rw [Books, Stage.waiting_receive]
        exact h.hit found
      | inr number =>
        exact h.waits found
  · exact h

theorem wake (h : Books lookups waiting (e, c)) : Books lookups waiting (c.wake e) := by
  unfold Call.wake
  split
  · next stage =>
    split
    · rw [Books, stage] at h
      rw [Books, Stage.waiting_receive]
      exact h.leave
    · exact h
  · exact h

theorem giveUp (timeout : Duration) (h : Books lookups waiting (e, c)) :
    Books lookups waiting (c.giveUp timeout e) := by
  unfold Call.giveUp
  split
  · next stage =>
    rw [Books, stage] at h
    exact h.giveUp
  · exact h

end Books

/-! ## Lookups of one caller -/

/-- A request on its way that was given snapshots for so many projects. -/
def Paces (t : Task) (q : Request) (given : Nat) : Prop :=
  ∃ order taken, t.projects.compilationOrder t.name = .ok order ∧ q.Along t.captured order taken ∧
    taken.length = given

inductive Stage.Paced (t : Task) (asked : Nat) : Stage → Prop where
  | asks {i : Job.Inputs} {q : Request} (way : Paces t q asked) (needs : q.demand = .needs i) :
      Paced t asked (.asks i q)
  | waits {given number : Nat} {i : Job.Inputs} {q : Request} (way : Paces t q given) (needs : q.demand = .needs i)
      (more : asked = given + 1) : Paced t asked (.waits number i q)
  | returned {order : List Project} {built : List (String × Snapshot)} {s : Snapshot}
      (ordered : t.projects.compilationOrder t.name = .ok order) (all : asked = order.length) :
      Paced t asked (.returned built (.ok s))
  | failed {built : List (String × Snapshot)} {failure : WorkspaceError} :
      Paced t asked (.returned built (.error failure))

variable {t : Task} {q : Request} {i : Job.Inputs} {given : Nat}

theorem Stage.paced_ofRequest (way : Paces t q given) : (ofRequest q).Paced t given := by
  unfold ofRequest
  split
  · next result ends =>
    cases result with
    | error => exact .failed
    | ok s =>
      obtain ⟨order, taken, ordered, along, rfl⟩ := way
      have all := along.order
      rw [(Request.demand_eq_finished_ok ends).1, List.map_nil, List.append_nil] at all
      exact .returned ordered (congrArg List.length all)
  · next needs => exact .asks way needs

theorem Stage.paced_begin (t : Task) : (begin t).Paced t 0 := by
  unfold begin
  split
  · exact .failed
  · next made =>
    obtain ⟨order, ordered, -, along⟩ := Request.along_of_ofStore made
    exact paced_ofRequest ⟨order, [], ordered, along, rfl⟩

theorem Stage.paced_receive (way : Paces t q given) (needs : q.demand = .needs i)
    (result : Except WorkspaceError Snapshot) : (receive q result).Paced t (given + 1) := by
  cases result with
  | error => exact .failed
  | ok s =>
    obtain ⟨order, taken, ordered, along, rfl⟩ := way
    obtain ⟨p, rest, remaining, -⟩ := along.next needs
    exact paced_ofRequest ⟨order, taken ++ [p], ordered, along.advance remaining s, by simp⟩

theorem Moves.paced {e : Engine} {c : Call} {r : Engine × Call} (h : Moves e c r)
    (paced : c.stage.Paced c.toTask c.asked.length) : r.2.stage.Paced r.2.toTask r.2.asked.length := by
  cases h with
  | stays => exact paced
  | hit stage =>
    rw [stage] at paced
    cases paced with
    | asks way needs => exact Stage.paced_receive way needs (.ok _)
  | joins stage | starts stage =>
    rw [stage] at paced
    cases paced with
    | asks way needs => exact .waits way needs rfl
  | wakes stage =>
    rw [stage] at paced
    cases paced with
    | waits way needs more =>
      rw [more]
      exact Stage.paced_receive way needs _
  | givesUp => exact .failed

end Call

namespace Session

/-- All lookups of all callers, and all that wait. -/
def Ledger (w : Session) : Prop :=
  w.engine.Ledger (w.calls.map (·.asked.length)).sum (w.calls.map (·.stage.waiting)).sum

variable {w : Session}

theorem Ledger.move {k : Nat} {step : Engine → Call → Engine × Call} (h : w.Ledger)
    (keeps : ∀ {e c lookups waiting}, Call.Books lookups waiting (e, c) → Call.Books lookups waiting (step e c)) :
    (w.move k step).Ledger := by
  cases found : w.calls[k]? with
  | none => rwa [move_none found]
  | some c =>
    rw [move_some found]
    obtain ⟨lookups, asked, asked'⟩ := exists_sum_map_set (·.asked.length) found
    obtain ⟨waiting, waits, waits'⟩ := exists_sum_map_set (·.stage.waiting) found
    rw [Ledger, asked, waits] at h
    rw [Ledger, asked', waits']
    exact keeps h

theorem Ledger.after (h : w.Ledger) (event : Event) : (w.after event).Ledger := by
  cases event with
  | lookup => exact h.move Call.Books.lookup
  | wake => exact h.move Call.Books.wake
  | giveUp _ timeout => exact h.move (Call.Books.giveUp timeout)
  | finish tc number => exact Engine.Ledger.complete h tc number
  | invalidate project => exact Engine.Ledger.invalidate h project
  | clear => exact Engine.Ledger.clear h
  | call solution name =>
    unfold Session.after enter
    dsimp only
    split
    · exact h
    · simpa [Ledger, Call.Stage.waiting_begin] using h
  | put | evict => exact h

end Session

/-! ## Callers in one go -/

theorem Request.length_remaining {q : Request} {i : Job.Inputs} (needs : q.demand = .needs i) (s : Snapshot) :
    q.remaining.length = 1 + (q.advance s).remaining.length := by
  obtain ⟨p, rest, remaining, -⟩ := demand_eq_needs needs
  rw [remaining_advance remaining, remaining, List.length_cons, Nat.add_comm]

namespace Engine

variable {e : Engine} {q : Request}

theorem counted_settle (run : Runner) (e : Engine) : (e.settle run).counted = e.counted := by
  unfold settle
  generalize e.running.filter (run.ready e.running) = ready
  induction ready generalizing e with
  | nil => rfl
  | cons j rest ih => exact (ih _).trans (counted_finish run.toolchain e j)

/-- Where nobody waits, each project that was needed is looked up once. -/
theorem counted_proceed (run : Runner) {s : Snapshot} (ends : (e.proceed run q).1 = .finished (.ok s)) :
    (e.proceed run q).2.counted = e.counted + q.remaining.length := by
  -- One turn is one lookup, and builds that end meanwhile count no lookups.
  fun_induction Engine.proceed run e q with
  | case1 e q result demand =>
    cases ends
    rw [(Request.demand_eq_finished_ok demand).1]
    rfl
  | case2 e q i needs s e' found ih =>
    have one := counted_lookup e i
    rw [found] at one
    rw [ih ends, one, Request.length_remaining needs s, Nat.add_assoc]
  | case3 => cases ends
  | case4 => cases ends
  | case5 e q i needs n e' found f s ended ih =>
    have one := counted_lookup e i
    rw [found] at one
    have same : f.counted = e'.counted := counted_settle run e'
    rw [ih ends, same, one, Request.length_remaining needs s, Nat.add_assoc]

end Engine

theorem Workspace.counted_compile {run : Runner} {w : Workspace} {ps : Projects} {store : Store} {name : String}
    {s : Snapshot} (done : (w.compile run ps store name).1 = .ok s) :
    ∃ order, ps.compilationOrder name = .ok order ∧
      (w.compile run ps store name).2.engine.counted = w.engine.counted + order.length := by
  cases asked : Request.ofStore ps store name with
  | error failure =>
    simp only [compile, Engine.enter, asked, Engine.conclude] at done
    cases done
  | ok q =>
    obtain ⟨order, ordered, -, along⟩ := Request.along_of_ofStore asked
    have length := congrArg List.length along.order
    rw [List.nil_append, List.length_map] at length
    refine ⟨order, ordered, ?_⟩
    simp only [compile, Engine.enter, asked] at done ⊢
    cases caller : (w.engine.proceed run q).1 with
    | waits => simp only [caller, Engine.conclude] at done; cases done
    | finished result =>
      simp only [caller, Engine.conclude] at done ⊢
      rw [Engine.counted_proceed run (caller.trans (congrArg _ done)), length]

/-! ## Many stores -/

namespace SharedCache

theorem ledger_run (events : List (Nat × Session.Event)) (k : Nat) : ((run events).session k).Ledger := by
  induction events using List.reverseRecOn generalizing k with
  | nil => exact .empty
  | append_singleton events event ih =>
    rw [run_concat]
    exact (ih event.1).after event.2

theorem paced_run (events : List (Nat × Session.Event)) :
    ∀ c ∈ (run events).calls, c.stage.Paced c.toTask c.asked.length := by
  induction events using List.reverseRecOn with
  | nil => simp [run]
  | append_singleton events event ih =>
    rw [run_concat]
    exact Session.calls_after event.2 (fun t _ => Call.Stage.paced_begin t) (fun _ _ _ way _ => way.paced) ih

/-- Whatever callers do at a cache and whatever becomes of builds, its counters account for all lookups and for all
builds, and no more callers give up than waited. Whoever is given a snapshot made one lookup for each project in the
compilation order. -/
theorem stats_account_for_requests :
    (∀ events : List Desk.Event, (Desk.run events).engine.Accounts (events.countP Desk.Event.asks)) ∧
    (∀ events : List (Nat × Session.Event),
      (run events).engine.Accounts (run events).hashed.length ∧
        ∀ c ∈ (run events).calls, ∀ s, c.answer? = some (.ok s) →
          ∃ order, c.projects.compilationOrder c.name = .ok order ∧ c.asked.length = order.length) ∧
    ∀ (runner : Runner) (w : Workspace) (ps : Projects) (store : Store) (name : String) (s : Snapshot),
      (w.compile runner ps store name).1 = .ok s →
        ∃ order, ps.compilationOrder name = .ok order ∧
          (w.compile runner ps store name).2.engine.counted = w.engine.counted + order.length := by
  refine ⟨Desk.accounts_run, fun events => ⟨?_, fun c hc s answer => ?_⟩, fun _ _ _ _ _ _ => Workspace.counted_compile⟩
  · have made : (run events).hashed.length = ((run events).calls.map (·.asked.length)).sum := List.length_flatMap
    rw [made]
    exact (ledger_run events 0).accounts
  · have paced := paced_run events c hc
    obtain ⟨built, stage⟩ := Call.answer?_eq_some.mp answer
    rw [stage] at paced
    cases paced with
    | returned ordered all => exact ⟨_, ordered, all⟩

/-- One caller joins the first build and gives up, the second build fails, and a third one is under way. -/
example :
    (Desk.run [.ask ⟨"App", [], []⟩, .ask ⟨"App", [], []⟩, .giveUp 1, .finish .blank 1, .ask ⟨"App", [], []⟩, .clear,
      .ask ⟨"App", [⟨⟨"a"⟩, "", 1⟩], []⟩, .finish { Toolchain.blank with parse := fun _ _ => .error "lost" } 2,
      .ask ⟨"App", [], []⟩]).engine.cache.stats =
        { hits := 1, builds := 3, joins := 1, failures := 1, timeouts := 1 } := by decide +kernel

end SharedCache

end CodeWorkspace
