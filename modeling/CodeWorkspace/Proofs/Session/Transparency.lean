import CodeWorkspace.Proofs.Engine.Fresh
import CodeWorkspace.Proofs.Session.Descriptions

/-! A cache does not show, as long as no two paths are written that read alike. Whatever a caller is told, an empty
cache would tell it of the store as it was when the caller captured from it, be it a hit, a build of another caller or
one of its own. -/
namespace CodeWorkspace

variable {tc : Toolchain} {w : Session} {event : Session.Event}

/-! ## Texts -/

/-- In the history of one store a stamp tells the document. -/
theorem Store.LeadsTo.eq_of_stamp {s t : Store} (h : s.LeadsTo t) (hs : s.Sound) (ht : t.Sound)
    {p p' : Path} {d d' : Document} (held : s.get? p = some d) (held' : t.get? p' = some d')
    (same : d.stamp = d'.stamp) : d = d' := by
  obtain ⟨path, version⟩ := Prod.mk.inj same
  refine h.held_eq hs (p := d.path) ?_ ?_ version
  · rw [s.get?_congr (hs.place held), held]
  · rw [path, t.get?_congr (ht.place held'), held']

theorem Session.Sound.imprintsTell {tools : Toolchain → Prop} (h : w.Sound tools) {paths : List Path}
    (stocked : w.Stocked paths) (apart : Path.Apart paths) : Job.Inputs.ImprintsTell w.hashed := by
  intro i hi j hj d hd d' hd' same
  obtain ⟨text, version⟩ := Prod.mk.inj same
  have path := apart _ (stocked.path_mem h.fit i hi d hd) _ (stocked.path_mem h.fit j hj d' hd') text
  have stamps : d.stamp = d'.stamp := by rw [Document.stamp, Document.stamp, path, version]
  obtain ⟨c, hc, wants⟩ := h.fit.wanted hi
  obtain ⟨c', hc', wants'⟩ := h.fit.wanted hj
  obtain ⟨p, held⟩ := wants.held d hd
  obtain ⟨p', held'⟩ := wants'.held d' hd'
  rcases h.comparable hc hc' with earlier | later
  · exact earlier.eq_of_stamp (h.calls c hc).store (h.calls c' hc').store held held' stamps
  · exact (later.eq_of_stamp (h.calls c' hc').store (h.calls c hc).store held' held stamps.symm).symm

theorem Job.Inputs.ImprintsTell.mono {hashed fewer : List Inputs} (h : ImprintsTell hashed)
    (sub : ∀ i ∈ fewer, i ∈ hashed) : ImprintsTell fewer :=
  fun i hi j hj => h i (sub i hi) j (sub j hj)

/-! ## Stages -/

namespace Call

/-- Where a stage leads to without a cache is where the task leads to. -/
def Stage.Agrees (tc : Toolchain) (t : Task) : Stage → Prop
  | .asks _ q | .waits _ _ q =>
    unnumbered (q.compile tc) = unnumbered (compileFresh tc t.projects t.captured t.name)
  | .returned _ result =>
    (∃ project timeout, result = .error (.buildTimeout project timeout)) ∨
      unnumbered result = unnumbered (compileFresh tc t.projects t.captured t.name)

variable {e : Engine} {c : Call} {t : Task} {q : Request} {i : Job.Inputs}
  {result : Except WorkspaceError Snapshot}

theorem Stage.agrees_ofRequest
    (same : unnumbered (q.compile tc) = unnumbered (compileFresh tc t.projects t.captured t.name)) :
    (Stage.ofRequest q).Agrees tc t := by
  unfold Stage.ofRequest
  split
  · next ends =>
    rw [Request.compile_finished ends] at same
    exact .inr same
  · exact same

theorem Stage.agrees_begin (t : Task) : (Stage.begin t).Agrees tc t := by
  unfold Stage.begin
  split
  · next failed =>
    right
    rw [compileFresh, failed]
  · next asked =>
    apply Stage.agrees_ofRequest
    rw [compileFresh, asked]

theorem Stage.agrees_receive (needs : q.demand = .needs i)
    (same : unnumbered (q.compile tc) = unnumbered (compileFresh tc t.projects t.captured t.name))
    (built : unnumbered result = unnumbered (Job.run tc ⟨i, 0⟩)) : (Stage.receive q result).Agrees tc t := by
  rw [Request.compile_needs needs, ← Request.receive_congr built] at same
  cases result with
  | error => exact .inr same
  | ok => exact Stage.agrees_ofRequest same

/-- Whoever asked for a build, it comes out as this caller would have it. -/
theorem unnumbered_of_settles {hashed : List Job.Inputs} (free : Job.Inputs.CollisionFree hashed)
    (tell : Job.Inputs.ImprintsTell hashed) (sound : e.Sound (· = tc))
    (builds : ∀ j ∈ e.started, j.inputs.Asked (· = tc) hashed) (asked : i.Asked (· = tc) hashed)
    (settles : Settles e i result) : unnumbered result = unnumbered (Job.run tc ⟨i, 0⟩) := by
  obtain ⟨j, hj, same, ended⟩ := settles
  obtain ⟨tool, used, made⟩ := sound.run_of_outcome hj ended
  rw [show tool = tc from used] at made
  rw [← made]
  exact Job.unnumbered_run_congr tc
    ((builds j hj).unnumbered_eq free tell asked (congrArg Job.Fingerprint.digest same))

theorem Moves.agrees {hashed : List Job.Inputs} {r : Engine × Call} (h : Moves e c r)
    (free : Job.Inputs.CollisionFree hashed) (tell : Job.Inputs.ImprintsTell hashed)
    (engine : e.Sound (· = tc)) (builds : ∀ j ∈ e.started, j.inputs.Asked (· = tc) hashed)
    (mem : ∀ i ∈ r.2.asked, i ∈ hashed) (sound : c.Sound (· = tc) hashed e)
    (agrees : c.stage.Agrees tc c.toTask) : r.2.stage.Agrees tc r.2.toTask := by
  have stage := sound.stage
  cases h with
  | stays => exact agrees
  | @hit i q s stats at_ live same =>
    rw [at_] at stage agrees
    obtain ⟨way, needs⟩ := stage
    have asked := (way.wants needs (mem i List.mem_cons_self)).asked
    exact Stage.agrees_receive needs agrees
      (unnumbered_of_settles free tell engine builds asked (settles_of_liveAt engine live same))
  | joins at_ =>
    rw [at_] at agrees
    exact agrees
  | starts at_ =>
    rw [at_] at agrees
    exact agrees
  | wakes at_ ended =>
    rw [at_] at stage agrees
    cases stage with
    | waits way needs mem build =>
      obtain ⟨j, hj, same, rfl⟩ := build
      exact Stage.agrees_receive needs agrees
        (unnumbered_of_settles free tell engine builds (sound.asked _ mem).asked ⟨j, hj, same, ended⟩)
  | givesUp => exact .inl ⟨_, _, rfl⟩

end Call

/-! ## Sessions -/

namespace Session

def Agrees (tc : Toolchain) (w : Session) : Prop := ∀ c ∈ w.calls, c.stage.Agrees tc c.toTask

private theorem agrees_after (sound : w.Sound (· = tc)) (free : Job.Inputs.CollisionFree (w.after event).hashed)
    (tell : Job.Inputs.ImprintsTell (w.after event).hashed) (h : w.Agrees tc) : (w.after event).Agrees tc := by
  have more := hashed_after w event
  refine calls_after event (fun t _ => Call.Stage.agrees_begin t) (fun c hc r way mem agrees => ?_) h
  exact way.agrees free tell sound.engine (fun j hj => (sound.asked_of_started j hj).mono more)
    (fun i hi => mem_hashed.mpr ⟨r.2, mem, hi⟩) ((sound.calls c hc).mono more (.refl _)) agrees

/-- What a caller is told, unless it gave up, an empty cache comes to with the store that was captured: a
snapshot of the same content, or the very same failure. -/
theorem returned_eq_fresh (tc : Toolchain) (events : List Event)
    (one : ∀ event ∈ events, event.Uses (· = tc)) (apart : Path.Apart (written events))
    (free : Job.Inputs.CollisionFree (run events).hashed) :
    ∀ c ∈ (run events).calls, ∀ result, c.answer? = some result →
      (∀ s, result = .ok s → ∃ s' e,
        Engine.enter (Engine.promptly tc) {} c.projects c.captured c.name = (.finished (.ok s'), e) ∧
          s.unnumbered = s'.unnumbered) ∧
      ∀ failure, result = .error failure → (∀ project timeout, failure ≠ .buildTimeout project timeout) →
        ∃ e, Engine.enter (Engine.promptly tc) {} c.projects c.captured c.name =
          (.finished (.error failure), e) := by
  have tell := (sound_run one free).imprintsTell (stocked_run events) apart
  obtain ⟨sound, agrees⟩ := run_induction (motive := Agrees tc) one free (by simp [Agrees])
    fun _ _ _ _ sound _ more => agrees_after sound (free.mono more) (tell.mono more)
  intro c hc result answer
  have same := agrees c hc
  obtain ⟨built, returned⟩ := Call.answer?_eq_some.mp answer
  rw [returned] at same
  obtain ⟨fresh, e, entered, alike⟩ := Engine.enter_fresh tc (sound.calls c hc).distinct c.captured c.name
  rw [entered]
  refine ⟨?_, ?_⟩
  · rintro s rfl
    rcases same with ⟨_, _, gaveUp⟩ | same
    · cases gaveUp
    · rw [← alike] at same
      cases fresh with
      | error => cases same
      | ok s' => exact ⟨s', e, rfl, Except.ok.inj same⟩
  · rintro failure rfl inTime
    rcases same with ⟨project, timeout, gaveUp⟩ | same
    · exact absurd (Except.error.inj gaveUp) (inTime project timeout)
    · rw [← alike] at same
      cases fresh with
      | error => exact ⟨e, by rw [Except.error.inj same]⟩
      | ok => cases same

/-- Two callers share each build, and a document changes on their way. -/
def sharing : List Event :=
  [.put ⟨"lib"⟩ "x", .put ⟨"app"⟩ "y", .call .pair "App", .call .pair "App", .lookup 0, .lookup 1,
    .put ⟨"lib"⟩ "z", .finish .blank 1, .wake 1, .lookup 1, .wake 0, .lookup 0, .finish .blank 2, .wake 0]

theorem returned_eq_fresh_sharing :
    (∀ event ∈ sharing, event.Uses (· = .blank)) ∧ Path.Apart (written sharing) ∧
      Job.Inputs.CollisionFree (run sharing).hashed ∧
      ∃ c ∈ (run sharing).calls, ∃ s, c.answer? = some (.ok s) ∧ ∃ s' e,
        Engine.enter (Engine.promptly .blank) {} c.projects c.captured c.name = (.finished (.ok s'), e) ∧
          s.unnumbered = s'.unnumbered := by
  have one : ∀ event ∈ sharing, event.Uses (· = .blank) := by simp [sharing, Event.Uses]
  have apart : Path.Apart (written sharing) := by decide +kernel
  have free : Job.Inputs.CollisionFree (run sharing).hashed := by
    simp only [run, sharing, List.foldl, after_call Solution.ofSolution_pair Solution.compilationOrder_pair]
    decide +kernel
  have told : ∃ c ∈ (run sharing).calls, (c.answer?.any (·.isOk)) = true := by
    simp only [run, sharing, List.foldl, after_call Solution.ofSolution_pair Solution.compilationOrder_pair]
    decide +kernel
  obtain ⟨c, hc, isOk⟩ := told
  obtain ⟨s, answer⟩ := Call.exists_of_isOk isOk
  exact ⟨one, apart, free, c, hc, s, answer,
    (returned_eq_fresh .blank sharing one apart free c hc (.ok s) answer).1 s rfl⟩

/-- The second caller is given what was compiled of the other document. Of its own an empty cache has it fail. -/
theorem lookalike_ne_fresh :
    (∀ event ∈ lookalike, event.Uses (· = .outline)) ∧ Job.Inputs.CollisionFree (run lookalike).hashed ∧
      ∃ c ∈ (run lookalike).calls, ∃ s failure, c.answer? = some (.ok s) ∧
        (Engine.enter (Engine.promptly .outline) {} c.projects c.captured c.name).1 = .finished (.error failure) := by
  obtain ⟨c, found, projects, name, captured, s, answer⟩ := answered_lookalike
  have distinct := Projects.distinct_of_ofSolution (Solution.ofSolution_listing .odd)
  obtain ⟨fresh, e, entered, alike⟩ := Engine.enter_fresh .outline distinct c.captured "Lib"
  have fails : (compileFresh .outline ⟨[Solution.sole .odd]⟩ c.captured "Lib").isOk = false := by
    rw [captured]
    simp only [compileFresh, Request.ofStore, Solution.compilationOrder_listing]
    decide +kernel
  generalize compileFresh .outline ⟨[Solution.sole .odd]⟩ c.captured "Lib" = compiled at alike fails
  cases compiled with
  | ok => cases fails
  | error =>
    cases fresh with
    | ok => cases alike
    | error failure =>
      exact ⟨uses_lookalike, collisionFree_lookalike, c, List.mem_of_getElem? found, s, failure, answer,
        by rw [projects, name, entered]⟩

end Session
end CodeWorkspace
