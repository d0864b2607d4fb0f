import CodeWorkspace.Proofs.Session.Descriptions

/-! One solution and one caller at a time. Builds may still end late, in any order and after their callers have
given up; yet no build is done twice, and what a caller is given is live and current when it is given. -/
namespace CodeWorkspace

variable {tools : Toolchain → Prop} {hashed : List Job.Inputs} {ps : Projects} {store : Store}

namespace Engine

/-- The builds of a solution over one store were started in the order of their captures. Whatever the store may
come to, a build that would be right again is followed by none of another origin. -/
structure InOrder (ps : Projects) (store : Store) (e : Engine) : Prop where
  described : ∀ j ∈ e.started, ∃ past : Store, past.Sound ∧ past.LeadsTo store ∧
    j.inputs.origin.Describes ps past
  lasting : ∀ i ∈ e.started, ∀ j ∈ e.started, i.sequence < j.sequence → i.inputs.key = j.inputs.key →
    ∀ t : Store, t.Sound → store.LeadsTo t → i.inputs.origin.Describes ps t →
      j.inputs.origin = i.inputs.origin
  kept : ∀ j ∈ e.started, ∀ s, e.outcome? j.sequence = some (.ok s) →
    ∃ l, e.cache.liveAt j.inputs.key = some l ∧ s.sequence ≤ l.sequence
  retried : ∀ i ∈ e.started, ∀ j ∈ e.started, i.sequence < j.sequence → i.fingerprint = j.fingerprint →
    ∃ failure, e.outcome? i.sequence = some (.error failure)

namespace InOrder

variable {e : Engine} {tc : Toolchain} {i : Job.Inputs}

theorem empty (ps : Projects) (store : Store) : InOrder ps store {} where
  described := by simp
  lasting := by simp
  kept := by simp
  retried := by simp

theorem later (h : e.InOrder ps store) {t : Store} (leads : store.LeadsTo t) : e.InOrder ps t where
  described j hj := by
    obtain ⟨past, sound, before, described⟩ := h.described j hj
    exact ⟨past, sound, before.trans leads, described⟩
  lasting i hi j hj lt key u sound after := h.lasting i hi j hj lt key u sound (leads.trans after)
  kept := h.kept
  retried := h.retried

theorem complete (h : e.InOrder ps store) (sound : e.Sound tools) (number : Nat) :
    (e.complete tc number).InOrder ps store := by
  apply complete_induction number h
  intro j running _
  have grows : e.Grows (e.finish tc j) := fun _ _ live => Cache.liveAt_publish live
  obtain ⟨hj, unended⟩ := mem_running.mp running
  refine ⟨h.described, h.lasting, fun x hx s ended => ?_, fun x hx y hy lt same => ?_⟩
  · rw [outcome?_finish] at ended
    split at ended
    · next here =>
      obtain rfl := sound.job_eq hj hx here
      have made := Option.some.inj ended
      unfold finish
      dsimp only
      rw [made]
      exact Cache.published_le_liveAt e.cache j s
    · obtain ⟨l, live, le⟩ := h.kept x hx s ended
      obtain ⟨m, live', rfl | lt⟩ := grows _ l live
      · exact ⟨m, live', le⟩
      · exact ⟨m, live', by omega⟩
  · obtain ⟨failure, ended⟩ := h.retried x hx y hy lt same
    refine ⟨failure, ?_⟩
    rw [outcome?_finish, if_neg]
    · exact ended
    · intro here
      rw [← here, unended] at ended
      cases ended

section Conclusions

variable (h : e.InOrder ps store) (sound : e.Sound tools)
include h sound

/-- Of one fingerprint one build at most ends well. -/
theorem once {j l : Job} {s t : Snapshot} (hj : j ∈ e.started) (hl : l ∈ e.started)
    (same : j.fingerprint = l.fingerprint) (ended : e.outcome? j.sequence = some (.ok s))
    (ended' : e.outcome? l.sequence = some (.ok t)) : j = l := by
  rcases Nat.lt_trichotomy j.sequence l.sequence with lt | eq | gt
  · obtain ⟨failure, failed⟩ := h.retried j hj l hl lt same
    cases ended.symm.trans failed
  · exact sound.job_eq hj hl eq
  · obtain ⟨failure, failed⟩ := h.retried l hl j hj gt same.symm
    cases ended'.symm.trans failed

/-- A snapshot that the store describes as it is now is live. -/
theorem liveAt_of_described (holds : store.Sound) (asked : ∀ j ∈ e.started, j.inputs.Asked tools hashed)
    {j : Job} {s : Snapshot} (hj : j ∈ e.started) (ended : e.outcome? j.sequence = some (.ok s))
    (described : s.origin.Describes ps store) : e.cache.liveAt (projectKey s.project) = some s := by
  obtain ⟨tc, -, made⟩ := sound.run_of_outcome hj ended
  obtain ⟨l, live, le⟩ := h.kept j hj s ended
  obtain ⟨x, hx, xkey, xended, tc', -, xmade⟩ := sound.made_of_liveAt live
  have same : j = x := by
    rw [Job.sequence_of_run made, Job.sequence_of_run xmade] at le
    rcases Nat.lt_or_eq_of_le le with lt | eq
    · rw [Job.origin_of_run made] at described
      have origin := h.lasting j hj x hx lt xkey.symm store holds (.refl store) described
      have digest := (asked x hx).digest_eq (asked j hj) (congrArg Origin.reading origin)
      refine h.once sound hj hx ?_ ended xended
      simp only [Job.fingerprint, Job.Inputs.fingerprint, xkey, digest]
    · exact sound.job_eq hj hx eq
  rw [← same, ended] at xended
  cases xended
  rw [Job.project_of_run made]
  exact live

/-- A build that would be right again and is neither live nor under way had failed. -/
theorem failed_of_missed (holds : store.Sound) (asked : ∀ j ∈ e.started, j.inputs.Asked tools hashed) {j : Job}
    (hj : j ∈ e.started) (same : j.fingerprint = i.fingerprint) (described : j.inputs.origin.Describes ps store)
    (missed : ∀ s, e.cache.liveAt i.key = some s → s.digest ≠ i.digest)
    (new : e.cache.sequence? i.fingerprint = none) : ∃ failure, e.outcome? j.sequence = some (.error failure) := by
  cases ended : e.outcome? j.sequence with
  | none =>
    apply absurd (sound.mem_inFlight.mpr ⟨j, mem_running.mpr ⟨hj, ended⟩, same, rfl⟩)
    exact Cache.not_mem_inFlight_of_sequence? new j.sequence
  | some result =>
    cases result with
    | error failure => exact ⟨failure, rfl⟩
    | ok s =>
      obtain ⟨tc, -, made⟩ := sound.run_of_outcome hj ended
      rw [← Job.origin_of_run made] at described
      have live := h.liveAt_of_described sound holds asked hj ended described
      have key : j.inputs.key = i.key := congrArg Job.Fingerprint.key same
      have digest : j.inputs.digest = i.digest := congrArg Job.Fingerprint.digest same
      rw [Job.project_of_run made] at live
      exact absurd ((Job.digest_of_run made).trans digest) (missed s (key ▸ live))

end Conclusions

/-- A build of what the store describes joins the order, unless it is live or under way. -/
theorem start (h : e.InOrder ps store) (sound : e.Sound tools) (holds : store.Sound)
    (distinct : ps.Distinct) (asked : ∀ j ∈ (e.start i).started, j.inputs.Asked tools hashed)
    (describes : ∀ j ∈ (e.start i).started, j.inputs.digest = i.digest → j.inputs.origin.Describes ps store)
    (missed : ∀ s, e.cache.liveAt i.key = some s → s.digest ≠ i.digest)
    (new : e.cache.sequence? i.fingerprint = none) : (e.start i).InOrder ps store := by
  have mem {j : Job} (hj : j ∈ (e.start i).started) :
      j ∈ e.started ∨ j = ⟨i, e.cache.nextSequence⟩ := by
    simpa [Engine.start] using hj
  have old {j : Job} (hj : j ∈ e.started) : j ∈ (e.start i).started := List.mem_append_left _ hj
  have here : (⟨i, e.cache.nextSequence⟩ : Job) ∈ (e.start i).started := by simp [Engine.start]
  have last : ∀ j ∈ e.started, j.sequence < e.cache.nextSequence := sound.below
  have described : i.origin.Describes ps store := describes _ here rfl
  -- What described an older build of the project, and would describe it again, describes it now.
  have lasting : ∀ j ∈ e.started, j.inputs.key = i.key → ∀ t : Store, t.Sound → store.LeadsTo t →
      j.inputs.origin.Describes ps t → i.origin = j.inputs.origin := by
    intro j hj key t sound' after again
    obtain ⟨past, holds', before, once⟩ := h.described j hj
    have now := once.between again before after holds' sound'
    exact described.unique distinct now (described.project_eq distinct now key.symm)
  -- Each part holds among the old builds. What is new is that the new build may be the later of two.
  refine ⟨fun j hj => ?_, fun j hj l hl lt key t => ?_, fun j hj s ended => ?_,
    fun j hj l hl lt same => ?_⟩
  · rcases mem hj with hj | rfl
    · exact h.described j hj
    · exact ⟨store, holds, .refl store, described⟩
  · rcases mem hj with hj | rfl
    · rcases mem hl with hl | rfl
      · exact h.lasting j hj l hl lt key t
      · exact lasting j hj key t
    · rcases mem hl with hl | rfl
      · exact absurd lt (Nat.lt_asymm (last l hl))
      · exact absurd lt (Nat.lt_irrefl _)
  · rcases mem hj with hj | rfl
    · exact h.kept j hj s ended
    · cases sound.outcome?_nextSequence.symm.trans ended
  · rcases mem hl with hl' | rfl
    · rcases mem hj with hj' | rfl
      · exact h.retried j hj' l hl' lt same
      · exact absurd lt (Nat.lt_asymm (last l hl'))
    · rcases mem hj with hj' | rfl
      · have again := describes j hj (congrArg Job.Fingerprint.digest same)
        exact h.failed_of_missed sound holds (fun x hx => asked x (old hx)) hj' same again missed new
      · exact absurd lt (Nat.lt_irrefl _)

end InOrder
end Engine

namespace Session

variable {w : Session} {event : Event}

/-- No caller is on its way. -/
def AtRest (w : Session) : Prop := ∀ c ∈ w.calls, c.answer?.isSome = true

instance (w : Session) : Decidable w.AtRest := inferInstanceAs (Decidable (∀ c ∈ w.calls, _))

/-- Whether an event has to wait until the last caller is gone. -/
def Event.comesAlone : Event → Bool
  | .put .. | .evict _ | .call .. => true
  | .invalidate _ | .clear | .lookup _ | .finish .. | .wake _ | .giveUp .. => false

/-- Edits and callers come one after another. Only builds end at any time. -/
structure Allows (ps : Projects) (w : Session) (event : Event) : Prop where
  within : event.Within ps
  atRest : event.comesAlone = true → w.AtRest

instance (ps : Projects) (w : Session) (event : Event) : Decidable (w.Allows ps event) :=
  decidable_of_iff (event.Within ps ∧ (event.comesAlone = true → w.AtRest))
    ⟨fun ⟨within, atRest⟩ => ⟨within, atRest⟩, fun h => ⟨h.within, h.atRest⟩⟩

def Orderly (ps : Projects) : Session → List Event → Prop
  | _, [] => True
  | w, event :: rest => w.Allows ps event ∧ Orderly ps (w.after event) rest

theorem orderly_append {events more : List Event} :
    Orderly ps w (events ++ more) ↔
      Orderly ps w events ∧ Orderly ps (events.foldl after w) more := by
  induction events generalizing w with
  | nil => simp [Orderly]
  | cons event rest ih =>
    simp only [List.cons_append, Orderly, List.foldl_cons, ih, and_assoc]

/-- All callers have the same projects, and one that is on its way sees the store as it captured it. -/
structure OneByOne (ps : Projects) (w : Session) : Prop where
  one : ∀ c ∈ w.calls, c.projects = ps
  waiting : ∀ c ∈ w.calls, c.answer? = none → c.captured = w.store
  builds : w.engine.InOrder ps w.store

namespace OneByOne

theorem empty (ps : Projects) : OneByOne ps {} := ⟨by simp, by simp, .empty ps _⟩

private theorem edit (h : w.OneByOne ps) (rest : w.AtRest) {s : Store} (leads : w.store.LeadsTo s) :
    OneByOne ps { w with store := s } where
  one := h.one
  waiting c hc answer := by
    have := rest c hc
    rw [answer] at this
    cases this
  builds := h.builds.later leads

private theorem enter (h : w.OneByOne ps) {solution : Solution} {name : String}
    (within : (Event.call solution name).Within ps) : (w.enter solution name).OneByOne ps := by
  have one := projects_after within h.one
  have checked : Projects.ofSolution solution = .ok ps := within
  rw [after, Session.enter, checked] at one
  rw [Session.enter, checked]
  refine ⟨one, fun c hc answer => ?_, h.builds⟩
  rcases List.mem_append.mp hc with hc | hc
  · exact h.waiting c hc answer
  · rw [List.mem_singleton.mp hc]

private theorem move (h : w.OneByOne ps) (sound : w.Sound tools) {k : Nat}
    {step : Engine → Call → Engine × Call} (moves : ∀ e c, Call.Moves e c (step e c))
    (sound' : (w.move k step).Sound tools)
    (free : Job.Inputs.CollisionFree (w.move k step).hashed) : (w.move k step).OneByOne ps := by
  have asked := sound'.asked_of_started
  have all := projects_move (k := k) moves h.one
  have describes : ∀ c ∈ (w.move k step).calls, ∀ i ∈ c.asked, ∀ j ∈ (w.move k step).engine.started,
      j.inputs.digest = i.digest → j.inputs.origin.Describes ps c.captured := by
    intro c hc i hi j hj same
    rw [← all c hc]
    exact (sound'.calls c hc).describes_of_digest free (sound'.pathsTell free all) (asked j hj) hi same
  cases found : w.calls[k]? with
  | none =>
    rw [move_none found]
    exact h
  | some c =>
    have hc := List.mem_of_getElem? found
    have one := h.one c hc
    generalize (w.move k step).hashed = hashed at asked
    rw [move_some found] at asked all describes ⊢
    have here := List.mem_set (List.getElem?_eq_some_iff.mp found).1 (step w.engine c).2
    have way := moves w.engine c
    generalize step w.engine c = r at way asked all describes here ⊢
    have pending : r.2.answer? = none → c.captured = w.store := by
      intro answer
      apply h.waiting c hc
      cases way with
      | stays => exact answer
      | hit at_ | joins at_ | starts at_ | wakes at_ | givesUp at_ => simp only [Call.answer?, at_]
    refine ⟨all, fun x hx answer => ?_, ?_⟩
    · rcases List.mem_or_eq_of_mem_set hx with old | rfl
      · exact h.waiting x old answer
      · rw [way.frame]
        exact pending answer
    · have distinct := (sound.calls c hc).distinct
      have described := describes r.2 here
      cases way with
      | @starts i q at_ missed new =>
        have described := described i List.mem_cons_self
        rw [pending rfl] at described
        rw [one] at distinct
        exact h.builds.start sound.engine sound.store distinct asked described missed new
      | stays | hit | joins | wakes | givesUp =>
        exact ⟨h.builds.described, h.builds.lasting, h.builds.kept, h.builds.retried⟩

theorem after (h : w.OneByOne ps) (sound : w.Sound tools) (sound' : (w.after event).Sound tools)
    (free : Job.Inputs.CollisionFree (w.after event).hashed) (allowed : w.Allows ps event) :
    (w.after event).OneByOne ps := by
  cases event with
  | put path text => exact h.edit (allowed.atRest rfl) (.put w.store path text)
  | evict path => exact h.edit (allowed.atRest rfl) (.evict w.store path)
  | invalidate => exact allowed.within.elim
  | clear => exact allowed.within.elim
  | call => exact h.enter allowed.within
  | lookup => exact h.move sound Call.moves_lookup sound' free
  | finish tc number => exact ⟨h.one, h.waiting, h.builds.complete sound.engine number⟩
  | wake => exact h.move sound Call.moves_wake sound' free
  | giveUp => exact h.move sound (Call.moves_giveUp _) sound' free

end OneByOne

theorem oneByOne_run {events : List Event} (orderly : Orderly ps {} events)
    (free : Job.Inputs.CollisionFree (run events).hashed) :
    (run events).Sound (fun _ => True) ∧ (run events).OneByOne ps := by
  apply run_induction (fun event _ => uses_any event) free (.empty ps)
  intro before event rest whole sound sound' more h
  rw [whole, orderly_append] at orderly
  exact h.after sound sound' (free.mono more) orderly.2.1

private theorem not_answered {k : Nat} {c : Call} (pending : w.calls[k]?.bind Call.answer? = none)
    (found : w.calls[k]? = some c) (answered : c.answer?.isSome = true) : False := by
  rw [found, Option.bind_some] at pending
  rw [pending] at answered
  cases answered

private theorem captured_of_move (h : w.OneByOne ps) {k m : Nat} {c : Call}
    {step : Engine → Call → Engine × Call} (moves : ∀ e c, Call.Moves e c (step e c))
    (pending : w.calls[k]?.bind Call.answer? = none) (found : (w.move m step).calls[k]? = some c)
    (answered : c.answer?.isSome = true) : c.captured = (w.move m step).store := by
  cases there : w.calls[m]? with
  | none =>
    rw [move_none there] at found
    exact (not_answered pending found answered).elim
  | some c' =>
    rw [move_some there] at found ⊢
    rw [List.getElem?_set] at found
    split at found
    · next same =>
      subst same
      rw [there, Option.bind_some] at pending
      split at found
      · obtain rfl := Option.some.inj found
        rw [(moves w.engine c').frame]
        exact h.waiting c' (List.mem_of_getElem? there) pending
      · cases found
    · exact (not_answered pending found answered).elim

/-- A caller that has just been answered sees the store as it captured it. -/
private theorem captured_of_answered (h : w.OneByOne ps) {k : Nat} {c : Call}
    (pending : w.calls[k]?.bind Call.answer? = none) (found : (w.after event).calls[k]? = some c)
    (answered : c.answer?.isSome = true) : c.captured = (w.after event).store := by
  cases event with
  | call s name =>
    unfold after enter at found ⊢
    dsimp only at found ⊢
    split at found
    · exact (not_answered pending found answered).elim
    · rw [List.getElem?_append] at found
      split at found
      · exact (not_answered pending found answered).elim
      · have := List.mem_of_getElem? found
        rw [List.mem_singleton.mp this]
  | lookup => exact captured_of_move h Call.moves_lookup pending found answered
  | wake => exact captured_of_move h Call.moves_wake pending found answered
  | giveUp => exact captured_of_move h (Call.moves_giveUp _) pending found answered
  | put | evict | invalidate | clear | finish => exact (not_answered pending found answered).elim

/-- What a caller was given, the last one first: a snapshot of each project of its compilation order, all of
them live and current. -/
structure Delivers (w : Session) (c : Call) (order : List Project) (built : List (String × Snapshot))
    (s : Snapshot) : Prop where
  ordered : c.projects.compilationOrder c.name = .ok order
  names : built.map (·.1) = (order.map (·.name)).reverse
  last : built.head?.map (·.2) = some s
  live : ∀ x ∈ built, w.engine.cache.liveAt (projectKey x.1) = some x.2
  current : ∀ x ∈ built, x.2.isCurrent w.store = true

/-- As long as the store is the one that a caller captured, it delivers what the caller was given. -/
private theorem delivers (h : w.OneByOne ps) (sound : w.Sound tools)
    (free : Job.Inputs.CollisionFree w.hashed) {c : Call} (hc : c ∈ w.calls) (same : c.captured = w.store)
    {built : List (String × Snapshot)} {s : Snapshot}
    (returned : c.stage = .returned built (.ok s)) : ∃ order, w.Delivers c order built s := by
  obtain ⟨order, given⟩ := (sound.calls c hc).given returned
  have described : ∀ x ∈ built, x.2.origin.Describes ps w.store := by
    intro x hx
    have holds := (given.held x hx).2
    rw [← h.one c hc, ← same]
    exact (sound.calls c hc).describes_of_known free (sound.pathsTell free h.one) holds.genuine holds.known
  refine ⟨order, given.ordered, given.names, ?_, fun x hx => ?_, fun x hx => ?_⟩
  · obtain ⟨name, rest, last⟩ := given.last
    rw [last]
    rfl
  · obtain ⟨project, holds⟩ := given.held x hx
    obtain ⟨j, hj, ended⟩ := holds.made
    rw [← project]
    exact h.builds.liveAt_of_described sound.engine sound.store sound.asked_of_started hj ended (described x hx)
  · exact (x.2.isCurrent_iff w.store).mpr ((described x hx).version? sound.store)

/-- One caller at a time: of each fingerprint one build at most ends well, and when a caller is given its
snapshot, this and all that it was built on are live and current. -/
theorem built_once_and_live (ps : Projects) (events : List Event) (orderly : Orderly ps {} events)
    (free : Job.Inputs.CollisionFree (run events).hashed) :
    (∀ i ∈ (run events).engine.started, ∀ j ∈ (run events).engine.started,
      i.fingerprint = j.fingerprint → ∀ s t, (run events).engine.outcome? i.sequence = some (.ok s) →
        (run events).engine.outcome? j.sequence = some (.ok t) → i = j) ∧
    ∀ before event rest, events = before ++ event :: rest →
      ∀ (k : Nat) (c : Call) (built : List (String × Snapshot)) (s : Snapshot),
        (run before).calls[k]?.bind Call.answer? = none → ((run before).after event).calls[k]? = some c →
          c.stage = .returned built (.ok s) → ∃ order, ((run before).after event).Delivers c order built s := by
  refine ⟨?_, ?_⟩
  · obtain ⟨sound, h⟩ := oneByOne_run orderly free
    intro i hi j hj same s t ended ended'
    exact h.builds.once sound.engine hi hj same ended ended'
  · rintro before event rest rfl k c built s pending found returned
    have whole : run (before ++ event :: rest) = rest.foldl after ((run before).after event) :=
      run_append before (event :: rest)
    rw [whole] at free
    have free' := free.mono (hashed_foldl ((run before).after event) rest)
    rw [orderly_append] at orderly
    obtain ⟨sound, h⟩ := oneByOne_run orderly.1 (free'.mono (hashed_after (run before) event))
    have sound' := sound.after (uses_any event) free'
    have h' := h.after sound sound' free' orderly.2.1
    have answered : c.answer?.isSome = true := by simp only [Call.answer?, returned, Option.isSome]
    exact delivers h' sound' free' (List.mem_of_getElem? found)
      (captured_of_answered h pending found answered) returned

/-- The first caller gives up; its build ends late, after that of the edit. -/
def late : List Event :=
  [.put ⟨"lib"⟩ "x", .put ⟨"app"⟩ "y", .call .pair "App", .lookup 0, .giveUp 0 (.ofSeconds 30),
    .put ⟨"lib"⟩ "z", .call .pair "App", .lookup 1, .finish .blank 2, .finish .blank 1, .wake 1, .lookup 1,
    .finish .blank 3]

theorem built_once_and_live_late :
    Orderly ⟨[Solution.lib, Solution.app]⟩ {} (late ++ [.wake 1]) ∧
      Job.Inputs.CollisionFree (run (late ++ [.wake 1])).hashed ∧
      ∃ c built s, (run late).calls[1]?.bind Call.answer? = none ∧
        ((run late).after (.wake 1)).calls[1]? = some c ∧ c.stage = .returned built (.ok s) ∧
        ∃ order, ((run late).after (.wake 1)).Delivers c order built s := by
  have orderly : Orderly ⟨[Solution.lib, Solution.app]⟩ {} (late ++ [.wake 1]) := by
    simp only [late, List.cons_append, List.nil_append, Orderly,
      after_call Solution.ofSolution_pair Solution.compilationOrder_pair]
    decide +kernel
  have free : Job.Inputs.CollisionFree (run (late ++ [.wake 1])).hashed := by
    simp only [run, late, List.cons_append, List.nil_append, List.foldl,
      after_call Solution.ofSolution_pair Solution.compilationOrder_pair]
    decide +kernel
  have pending : ((run late).calls[1]?.bind Call.answer?).isNone = true := by
    simp only [run, late, List.foldl, after_call Solution.ofSolution_pair Solution.compilationOrder_pair]
    decide +kernel
  have told : (((run late).after (.wake 1)).calls[1]?.any fun c => c.answer?.any (·.isOk)) = true := by
    simp only [run, late, List.foldl, after_call Solution.ofSolution_pair Solution.compilationOrder_pair]
    decide +kernel
  rw [Option.isNone_iff_eq_none] at pending
  obtain ⟨c, found, isOk⟩ := (Option.any_eq_true ..).mp told
  obtain ⟨s, answer⟩ := Call.exists_of_isOk isOk
  obtain ⟨built, returned⟩ := Call.answer?_eq_some.mp answer
  have conclusion := built_once_and_live ⟨[Solution.lib, Solution.app]⟩ (late ++ [.wake 1])
  exact ⟨orderly, free, c, built, s, pending, found, returned,
    (conclusion orderly free).2 late (.wake 1) [] rfl 1 c built s pending found returned⟩

end Session
end CodeWorkspace
