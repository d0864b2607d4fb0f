import CodeWorkspace.Proofs.Session.Descriptions
import CodeWorkspace.Proofs.Snapshot.Transitive
import CodeWorkspace.Proofs.Solution.Search

/-! What a caller finds below the snapshot that it was given: the projects in the order in which it had them looked up,
with the digests that it came to, whatever other call or solution the snapshots were built for. -/
namespace CodeWorkspace

variable {tools : Toolchain → Prop} {hashed : List Job.Inputs}

namespace Call

/-! ## What was looked up and what was given -/

/-- A project with the digest that was computed for it. -/
def entry (i : Job.Inputs) : String × Digest := (i.project, i.digest)

/-- A project with the digest of the snapshot that was given for it. -/
def givenEntry (x : String × Snapshot) : String × Digest := (x.1, x.2.digest)

/-- All that was looked up was given too, but for the build that is waited for. -/
def Stage.Tallies (asked : List Job.Inputs) : Stage → Prop
  | .asks _ q => asked.map entry = q.built.map givenEntry
  | .waits _ i q => asked.map entry = entry i :: q.built.map givenEntry
  | .returned built (.ok _) => asked.map entry = built.map givenEntry
  | .returned _ (.error _) => True

section Stages

variable {e : Engine} {c : Call} {q : Request} {i : Job.Inputs} {asked : List Job.Inputs}

theorem Stage.tallies_ofRequest (same : asked.map entry = q.built.map givenEntry) :
    (Stage.ofRequest q).Tallies asked := by
  unfold Stage.ofRequest
  split
  · next result _ =>
    cases result with
    | error => trivial
    | ok => exact same
  · exact same

theorem Stage.tallies_begin (t : Task) : (Stage.begin t).Tallies [] := by
  unfold Stage.begin
  split
  · trivial
  · next made =>
    obtain ⟨_, _, none, _⟩ := Request.along_of_ofStore made
    exact Stage.tallies_ofRequest (by rw [none]; rfl)

theorem Stage.tallies_receive (needs : q.demand = .needs i)
    (same : asked.map entry = entry i :: q.built.map givenEntry) {result : Except WorkspaceError Snapshot}
    (digest : ∀ s, result = .ok s → s.digest = i.digest) : (Stage.receive q result).Tallies asked := by
  cases result with
  | error => trivial
  | ok s =>
    obtain ⟨p, rest, remaining, project, -⟩ := Request.demand_eq_needs needs
    apply Stage.tallies_ofRequest
    rw [same, Request.built_advance remaining, List.map_cons, entry, givenEntry, project, digest s rfl]

theorem Moves.tallies {r : Engine × Call} (h : Moves e c r) (engine : e.Sound tools)
    (sound : c.Sound tools hashed e) (tallies : c.stage.Tallies c.asked) : r.2.stage.Tallies r.2.asked := by
  have stage := sound.stage
  have more {i : Job.Inputs} {q : Request} (same : c.asked.map entry = q.built.map givenEntry) :
      (i :: c.asked).map entry = entry i :: q.built.map givenEntry := by
    rw [List.map_cons, same]
  cases h with
  | stays => exact tallies
  | hit at_ live same =>
    rw [at_] at stage tallies
    obtain ⟨_, needs⟩ := stage
    exact Stage.tallies_receive needs (more tallies) fun t made => Except.ok.inj made ▸ same
  | joins at_ | starts at_ =>
    rw [at_] at tallies
    exact more tallies
  | @wakes number i q result at_ ended =>
    rw [at_] at stage tallies
    cases stage with
    | waits _ needs _ build =>
      refine Stage.tallies_receive needs tallies fun s made => ?_
      -- A build that was joined may have begun with other inputs, but of the same fingerprint.
      obtain ⟨j, hj, same, rfl⟩ := build
      subst made
      obtain ⟨tc, -, ran⟩ := engine.run_of_outcome hj ended
      exact (Job.digest_of_run ran).trans (congrArg Job.Fingerprint.digest same)
  | givesUp => trivial

end Stages

/-! ## What is below a snapshot that was given -/

section Below

variable {e : Engine} {c : Call} {s x y : Snapshot}

/-- The snapshots that a caller knows mirror the projects that it came with. -/
theorem Sound.mirrors (h : c.Sound tools hashed e) (free : Job.Inputs.CollisionFree hashed)
    (genuine : s.Genuine tools hashed) (known : Known c.asked s) : s.Mirrors c.projects := by
  induction genuine with
  | run _ asked made references ih =>
    obtain ⟨i, looked, -, same⟩ := known
    rw [Job.digest_of_run made] at same
    obtain ⟨p, drawn, name, names, known⟩ := h.drawn_of_digest free ⟨asked, references⟩ looked same
    obtain ⟨y, -, -, rfl⟩ := Job.run_eq_ok_iff.mp made
    exact .project drawn.listed name names fun r hr => ih r hr (known r hr)

theorem Sound.known_of_reaches (h : c.Sound tools hashed e) (free : Job.Inputs.CollisionFree hashed)
    (genuine : s.Genuine tools hashed) (known : Known c.asked s) (way : s.Reaches x) : Known c.asked x := by
  induction way with
  | refl => exact known
  | tail before step ih =>
    obtain ⟨i, looked, -, same⟩ := ih
    obtain ⟨-, asked, made, references⟩ := Snapshot.genuine_of_reaches genuine before
    rw [Job.digest_of_run made] at same
    obtain ⟨-, -, -, -, known⟩ := h.drawn_of_digest free ⟨asked, references⟩ looked same
    obtain ⟨y, -, -, rfl⟩ := Job.run_eq_ok_iff.mp made
    exact known _ step

end Below

namespace Given

variable {e : Engine} {c : Call} {order : List Project} {built : List (String × Snapshot)} {s x y : Snapshot}

theorem projects_transitive (h : Given tools hashed e c order built s) (sound : c.Sound tools hashed e)
    (free : Job.Inputs.CollisionFree hashed) : s.transitive.map (·.project) = order.map (·.name) := by
  obtain ⟨root, -, found, -, project⟩ := h.root
  exact Snapshot.projects_transitive sound.distinct h.ordered
    ⟨⟨root, found, project⟩, sound.mirrors free h.holds.genuine h.holds.known⟩

/-- Each project was looked up once, so that all that is known of it has the one digest. -/
theorem digest_eq (h : Given tools hashed e c order built s) (distinct : c.projects.Distinct)
    (names : c.asked.map (·.project) = built.map (·.1)) (hx : Known c.asked x) (hy : Known c.asked y)
    (same : x.project = y.project) : x.digest = y.digest := by
  have once : (c.asked.map (·.project)).Nodup := by
    have keys := Projects.keys_nodup_of_compilationOrder distinct h.ordered
    rw [names, h.names, List.nodup_reverse]
    apply List.Nodup.of_map projectKey
    rw [List.map_map]
    exact keys
  obtain ⟨i, hi, project, digest⟩ := hx
  obtain ⟨j, hj, project', digest'⟩ := hy
  obtain rfl := List.inj_on_of_nodup_map once hi hj (by rw [← project, ← project', same])
  rw [digest, digest']

/-- What is known is of a project that was given. -/
theorem exists_given_of_known (h : Given tools hashed e c order built s)
    (names : c.asked.map (·.project) = built.map (·.1)) (known : Known c.asked x) :
    ∃ y ∈ built, x.project = y.2.project := by
  obtain ⟨i, hi, project, -⟩ := known
  have mem : i.project ∈ built.map (·.1) := names ▸ List.mem_map_of_mem hi
  obtain ⟨y, given, name⟩ := List.mem_map.mp mem
  exact ⟨y, given, by rw [project, ← name, (h.held y given).1]⟩

/-- The walk meets the projects that were given, though it need not meet the very snapshots. -/
theorem map_transitive {β : Type*} {f : Snapshot → β} (h : Given tools hashed e c order built s)
    (sound : c.Sound tools hashed e) (free : Job.Inputs.CollisionFree hashed)
    (tells : ∀ x ∈ s.transitive, ∀ y ∈ built, x.project = y.2.project → f x = f y.2) :
    s.transitive.map f = (built.map fun y => f y.2).reverse := by
  have projects : s.transitive.map (·.project) = (built.map (·.2)).reverse.map (·.project) := by
    rw [h.projects_transitive sound free, List.map_reverse, List.map_map, ← List.reverse_eq_iff.mpr h.names]
    exact congrArg List.reverse (List.map_congr_left fun x hx => (h.held x hx).1.symm)
  rw [map_eq_map_of_tells (fun x hx y hy => ?_) projects, List.map_reverse, List.map_map]
  · rfl
  · obtain ⟨z, hz, rfl⟩ := List.mem_map.mp (List.mem_reverse.mp hy)
    exact tells x hx z hz

/-- With their digests. -/
theorem entries_transitive (h : Given tools hashed e c order built s) (sound : c.Sound tools hashed e)
    (free : Job.Inputs.CollisionFree hashed) (names : c.asked.map (·.project) = built.map (·.1)) :
    s.transitive.map (fun x => (x.project, x.digest)) = (built.map givenEntry).reverse := by
  rw [h.map_transitive sound free fun x hx y hy same => Prod.ext same ?_]
  · exact congrArg List.reverse (List.map_congr_left fun y hy => Prod.ext (h.held y hy).1 rfl)
  · have known := sound.known_of_reaches free h.holds.genuine h.holds.known (Snapshot.reaches_of_mem_transitive hx)
    exact h.digest_eq sound.distinct names known (h.held y hy).2.known same

end Given
end Call

namespace Session

theorem tallies_run {events : List Event} (free : Job.Inputs.CollisionFree (run events).hashed) :
    (run events).Sound (fun _ => True) ∧ ∀ c ∈ (run events).calls, c.stage.Tallies c.asked := by
  apply run_induction (motive := fun w => ∀ c ∈ w.calls, c.stage.Tallies c.asked) (fun event _ => uses_any event) free
    (by simp)
  intro before event _ _ sound _ _ tallies
  refine calls_after event (fun t _ => Call.Stage.tallies_begin t) (fun c hc r way _ => ?_) tallies
  exact way.tallies sound.engine (sound.calls c hc)

/-- Whatever a caller is given, its references lead through the compilation order, with the digests that this caller
computed and one digest only for each project; a query of them all comes to the project itself last. -/
theorem transitive_eq_order (events : List Event) (free : Job.Inputs.CollisionFree (run events).hashed) :
    ∀ c ∈ (run events).calls, ∀ s, c.answer? = some (.ok s) →
      (∃ order, c.projects.compilationOrder c.name = .ok order ∧
        s.transitive.map (·.project) = order.map (·.name)) ∧
      s.transitive.map (fun t => (t.project, t.digest)) = c.asked.reverse.map (fun i => (i.project, i.digest)) ∧
      (∀ t u, s.Reaches t → s.Reaches u → t.project = u.project → t.digest = u.digest) ∧
      ∃ before, s.transitive = before ++ [s] ∧ ∀ filter,
        (Query.mk s filter .transitive).cursor.toList =
          (before.flatMap fun t => (Query.mk t filter .project).cursor.toList) ++
            (Query.mk s filter .project).cursor.toList := by
  intro c hc s answer
  obtain ⟨sound, tallies⟩ := tallies_run free
  have call := sound.calls c hc
  obtain ⟨built, returned⟩ := Call.answer?_eq_some.mp answer
  obtain ⟨order, given⟩ := call.given returned
  have looked : c.asked.map Call.entry = built.map Call.givenEntry := by
    have := tallies c hc
    rwa [returned] at this
  have names : c.asked.map (·.project) = built.map (·.1) := by
    have := congrArg (List.map Prod.fst) looked
    rwa [List.map_map, List.map_map] at this
  refine ⟨⟨order, given.ordered, given.projects_transitive call free⟩, ?_, fun t u way way' => ?_, ?_⟩
  · calc s.transitive.map (fun t => (t.project, t.digest))
      _ = (built.map Call.givenEntry).reverse := given.entries_transitive call free names
      _ = (c.asked.map Call.entry).reverse := congrArg List.reverse looked.symm
      _ = c.asked.reverse.map fun i => (i.project, i.digest) := List.map_reverse.symm
  · have known {x : Snapshot} := call.known_of_reaches (x := x) free given.holds.genuine given.holds.known
    exact given.digest_eq call.distinct names (known way) (known way')
  · obtain ⟨before, last⟩ := s.transitive_eq
    exact ⟨before, last, Query.toList_transitive last⟩

/-- The core is built anew for the shell, but `Ui` is found as it was, and holds the core that it was built on. -/
def renewed : List Event :=
  [.call Projects.layers "ui", .lookup 0, .finish .blank 1, .wake 0, .lookup 0, .finish .blank 2, .wake 0,
    .invalidate "core", .call Projects.layers "shell", .lookup 1, .finish .blank 3, .wake 1, .lookup 1, .lookup 1,
    .finish .blank 4, .wake 1]

theorem transitive_eq_order_renewed :
    Job.Inputs.CollisionFree (run renewed).hashed ∧ ∃ c ∈ (run renewed).calls, ∃ s, c.answer? = some (.ok s) ∧
      s.transitive.map (·.project) = ["Core", "Ui", "Shell"] ∧
      s.transitive.map (fun t => (t.project, t.digest)) = c.asked.reverse.map (fun i => (i.project, i.digest)) ∧
      ∃ t u, s.Reaches t ∧ s.Reaches u ∧ t.project = u.project ∧ t.sequence ≠ u.sequence ∧ t.digest = u.digest := by
  have ui : Projects.layered.compilationOrder "ui" = .ok [Projects.core, Projects.ui] :=
    Option.some.inj ((Projects.orderWithin_length ..).symm.trans (by decide +kernel))
  have shell : Projects.layered.compilationOrder "shell" = .ok [Projects.core, Projects.ui, Projects.shell] :=
    Option.some.inj ((Projects.orderWithin_length ..).symm.trans (by decide +kernel))
  have free : Job.Inputs.CollisionFree (run renewed).hashed := by
    simp only [run, renewed, List.foldl, after_call Projects.ofSolution_layers ui,
      after_call Projects.ofSolution_layers shell]
    decide +kernel
  have told : ∃ c ∈ (run renewed).calls, c.projects = Projects.layered ∧ c.name = "shell" ∧
      (c.answer?.any (·.isOk)) = true ∧ ∀ s ∈ c.answer?.bind (·.toOption),
        ∃ r ∈ s.references, ∃ t ∈ r.references, ∃ u ∈ s.references, t.project = u.project ∧
          t.sequence ≠ u.sequence := by
    simp only [run, renewed, List.foldl, after_call Projects.ofSolution_layers ui,
      after_call Projects.ofSolution_layers shell]
    decide +kernel
  obtain ⟨c, hc, projects, name, isOk, twice⟩ := told
  obtain ⟨s, answer⟩ := Call.exists_of_isOk isOk
  obtain ⟨⟨order, ordered, walked⟩, digests, one, -⟩ := transitive_eq_order renewed free c hc s answer
  rw [projects, name, shell] at ordered
  cases ordered
  rw [answer] at twice
  obtain ⟨r, hr, t, ht, u, hu, same, apart⟩ := twice s rfl
  have way : s.Reaches t := .tail (.single hr) ht
  exact ⟨free, c, hc, s, answer, walked, digests, t, u, way, .single hu, same, apart, one t u way (.single hu) same⟩

end Session
end CodeWorkspace
