import CodeWorkspace.Store
import Mathlib.Data.List.Forall2

/-! How a store changes. A place never gets a version twice, so what a later store holds in an old version was
held all the time; this orders the states of one store, and a version tells the text. -/
namespace CodeWorkspace

namespace Path

theorem same_comm (p q : Path) : p.same q = q.same p := by
  simp only [same, eq_comm]

/-- A path may be replaced by another spelling in a comparison. -/
theorem same_congr {p q : Path} (h : p.same q = true) (r : Path) : r.same p = r.same q := by
  simp only [same, same_iff.mp h]

theorem same_trans {p q r : Path} (h : p.same q = true) (h' : q.same r = true) : p.same r = true := by
  rw [← same_congr h' p, h]

end Path

namespace Store

theorem record?_congr (s : Store) {p q : Path} (h : p.same q = true) : s.record? p = s.record? q := by
  unfold record?
  congr 1
  funext r
  exact Path.same_congr h r.path

theorem get?_congr (s : Store) {p q : Path} (h : p.same q = true) : s.get? p = s.get? q := by
  simp only [get?, record?_congr s h]

theorem lastVersion_congr (s : Store) {p q : Path} (h : p.same q = true) :
    s.lastVersion p = s.lastVersion q := by
  simp only [lastVersion, record?_congr s h]

/-! ## Writes and evictions, place by place -/

/-- Changing the records of the place `q` changes what is found there and nothing else. -/
private theorem record?_map (s : Store) (p q : Path) (f : Record → Record)
    (stays : ∀ r, r.path.same q = true → (f r).path.same p = r.path.same p) :
    Store.record? ⟨s.records.map fun r => if r.path.same q then f r else r⟩ p =
      (s.record? p).map fun r => if q.same p then f r else r := by
  unfold record?
  rw [List.find?_map]
  have same : ((fun r : Record => r.path.same p) ∘ fun r => if r.path.same q then f r else r) =
      fun r => r.path.same p := by
    funext r
    simp only [Function.comp_apply]
    split
    · next h => exact stays r h
    · rfl
  rw [same]
  cases found : s.records.find? (·.path.same p) with
  | none => rfl
  | some r =>
    have there : r.path.same p = true := by simpa using List.find?_some found
    have : r.path.same q = q.same p := by rw [Path.same_comm, Path.same_congr there]
    simp only [Option.map_some, this]

private theorem record?_evict (s : Store) (p q : Path) :
    (s.evict q).record? p =
      (s.record? p).map fun r => if q.same p then { r with held := none } else r :=
  record?_map s p q _ fun _ _ => rfl

private theorem record?_put_none {s : Store} {q : Path} (absent : s.record? q = none) (p : Path)
    (text : String) :
    (s.put q text).record? p =
      if q.same p then some ⟨q, 1, some ⟨q, text, 1⟩⟩ else s.record? p := by
  unfold put
  rw [absent]
  unfold record?
  dsimp only
  rw [List.find?_append, List.find?_singleton]
  split
  · next h =>
    rw [record?_congr s h] at absent
    unfold record? at absent
    rw [absent]
    rfl
  · simp

private theorem record?_put_some {s : Store} {q : Path} {r : Record} (found : s.record? q = some r)
    (p : Path) (text : String) :
    (s.put q text).record? p =
      (s.record? p).map fun r => if q.same p then r.write q text else r := by
  unfold put
  rw [found]
  refine record?_map s p q _ fun r h => ?_
  unfold Record.write
  dsimp only
  split
  · rfl
  · rw [Path.same_comm q p, Path.same_comm r.path p, Path.same_congr h]

/-- A write of one place is not seen at another. -/
theorem record?_put_of_ne {s : Store} {p q : Path} (other : q.same p = false) (text : String) :
    (s.put q text).record? p = s.record? p := by
  cases found : s.record? q with
  | none => rw [record?_put_none found, if_neg (by simp [other])]
  | some r => rw [record?_put_some found, other]; simp

theorem lastVersion_put (s : Store) (p q : Path) (text : String) :
    (s.put q text).lastVersion p = if q.same p then s.lastVersion p + 1 else s.lastVersion p := by
  unfold lastVersion
  cases found : s.record? q with
  | none =>
    rw [record?_put_none found]
    by_cases h : q.same p = true
    · simp [h, ← record?_congr s h, found]
    · simp [h]
  | some r =>
    rw [record?_put_some found]
    by_cases h : q.same p = true
    · simp [h, ← record?_congr s h, found, Record.write]
    · simp [h]

theorem get?_put (s : Store) (p q : Path) (text : String) :
    (s.put q text).get? p =
      if q.same p then some ⟨q, text, s.lastVersion p + 1⟩ else s.get? p := by
  unfold get? lastVersion
  cases found : s.record? q with
  | none =>
    rw [record?_put_none found]
    by_cases h : q.same p = true
    · simp [h, ← record?_congr s h, found]
    · simp [h]
  | some r =>
    rw [record?_put_some found]
    by_cases h : q.same p = true
    · simp [h, ← record?_congr s h, found, Record.write]
    · simp [h]

theorem lastVersion_evict (s : Store) (p q : Path) : (s.evict q).lastVersion p = s.lastVersion p := by
  unfold lastVersion
  rw [record?_evict]
  cases s.record? p with
  | none => rfl
  | some r =>
    dsimp only [Option.map_some]
    split <;> rfl

theorem get?_evict (s : Store) (p q : Path) :
    (s.evict q).get? p = if q.same p then none else s.get? p := by
  unfold get?
  rw [record?_evict]
  cases s.record? p with
  | none => simp
  | some r =>
    by_cases h : q.same p = true <;> simp [h]

/-! ## What is held -/

/-- A document that is held carries the last version of its place, and a spelling of it. -/
structure Sound (s : Store) : Prop where
  version : ∀ {p d}, s.get? p = some d → d.version = s.lastVersion p
  place : ∀ {p d}, s.get? p = some d → d.path.same p = true

namespace Sound

variable {s : Store}

theorem empty : Sound {} where
  version h := by simp [get?, record?] at h
  place h := by simp [get?, record?] at h

theorem put (h : s.Sound) (q : Path) (text : String) : (s.put q text).Sound where
  version {p d} held := by
    rw [get?_put] at held
    rw [lastVersion_put]
    split at held
    · cases held; rw [if_pos ‹_›]
    · rw [if_neg ‹_›]; exact h.version held
  place {p d} held := by
    rw [get?_put] at held
    split at held
    · cases held; assumption
    · exact h.place held

theorem evict (h : s.Sound) (q : Path) : (s.evict q).Sound where
  version {p d} held := by
    rw [get?_evict] at held
    rw [lastVersion_evict]
    split at held
    · cases held
    · exact h.version held
  place {p d} held := by
    rw [get?_evict] at held
    split at held
    · cases held
    · exact h.place held

end Sound

/-! ## Succession -/

/-- What writes and evictions make of a store: versions do not go down, and what the later store holds in a
version that the earlier one had reached was held by the earlier one. -/
structure LeadsTo (s t : Store) : Prop where
  lastVersion_le : ∀ p, s.lastVersion p ≤ t.lastVersion p
  held_before : ∀ {p d}, t.get? p = some d → d.version ≤ s.lastVersion p → s.get? p = some d

namespace LeadsTo

variable {s t u : Store}

@[refl] theorem refl (s : Store) : s.LeadsTo s := ⟨fun _ => Nat.le_refl _, fun h _ => h⟩

theorem trans (h : s.LeadsTo t) (h' : t.LeadsTo u) : s.LeadsTo u where
  lastVersion_le p := Nat.le_trans (h.lastVersion_le p) (h'.lastVersion_le p)
  held_before {p _} held old :=
    h.held_before (h'.held_before held (Nat.le_trans old (h.lastVersion_le p))) old

theorem put (s : Store) (q : Path) (text : String) : s.LeadsTo (s.put q text) where
  lastVersion_le p := by
    rw [lastVersion_put]
    split <;> omega
  held_before {p d} held old := by
    rw [get?_put] at held
    split at held
    · cases held
      simp only at old
      omega
    · exact held

theorem evict (s : Store) (q : Path) : s.LeadsTo (s.evict q) where
  lastVersion_le p := Nat.le_of_eq (lastVersion_evict s p q).symm
  held_before {p d} held _ := by
    rw [get?_evict] at held
    split at held
    · cases held
    · exact held

/-- In the history of one store a place and a version tell the document. -/
theorem held_eq (h : s.LeadsTo t) (hs : s.Sound) {p : Path} {d d' : Document}
    (held : s.get? p = some d) (held' : t.get? p = some d') (same : d.version = d'.version) : d = d' := by
  have := h.held_before held' (Nat.le_of_eq (by rw [← same, hs.version held]))
  rw [held] at this
  exact Option.some.inj this

end LeadsTo

inductive Edit where
  | put (path : Path) (text : String)
  | evict (path : Path)
  deriving DecidableEq, Repr

def edit (s : Store) : Edit → Store
  | .put path text => s.put path text
  | .evict path => s.evict path

def edited (s : Store) (edits : List Edit) : Store := edits.foldl edit s

theorem edited_append (s : Store) (edits more : List Edit) :
    s.edited (edits ++ more) = (s.edited edits).edited more := List.foldl_append ..

theorem Sound.edited {s : Store} (h : s.Sound) (edits : List Edit) : (s.edited edits).Sound := by
  induction edits generalizing s with
  | nil => exact h
  | cons e rest ih =>
    cases e with
    | put path text => exact ih (h.put path text)
    | evict path => exact ih (h.evict path)

theorem LeadsTo.edited (s : Store) (edits : List Edit) : s.LeadsTo (s.edited edits) := by
  induction edits generalizing s with
  | nil => exact .refl s
  | cons e rest ih =>
    cases e with
    | put path text => exact (LeadsTo.put s path text).trans (ih (s.put path text))
    | evict path => exact (LeadsTo.evict s path).trans (ih (s.evict path))

/-! ## Captures -/

theorem capture_eq_ok_iff {s : Store} {paths : List Path} {documents : List Document} :
    s.capture paths = .ok documents ↔ List.Forall₂ (fun p d => s.get? p = some d) paths documents := by
  induction paths generalizing documents with
  | nil => simp [capture, eq_comm]
  | cons p rest ih =>
    unfold capture read
    constructor
    · intro h
      split at h
      · cases h
      · next d found =>
        split at h
        · cases h
        · next ds captured =>
          cases h
          refine .cons ?_ (ih.mp captured)
          split at found
          · next held => cases found; exact held
          · cases found
    · rintro (_ | ⟨held, rest⟩)
      rw [held, ih.mpr rest]

theorem exists_capture_iff {s : Store} {paths : List Path} :
    (∃ documents, s.capture paths = .ok documents) ↔ ∀ p ∈ paths, s.contains p = true := by
  simp only [capture_eq_ok_iff, contains, Option.isSome_iff_exists]
  induction paths with
  | nil => simp
  | cons p rest ih =>
    rw [List.forall_mem_cons, ← ih]
    constructor
    · rintro ⟨_, _ | ⟨held, more⟩⟩
      exact ⟨⟨_, held⟩, _, more⟩
    · rintro ⟨⟨d, held⟩, ds, more⟩
      exact ⟨d :: ds, .cons held more⟩

theorem filterMap_of_capture {s : Store} {paths : List Path} {documents : List Document}
    (h : s.capture paths = .ok documents) : paths.filterMap s.get? = documents := by
  rw [capture_eq_ok_iff] at h
  induction h with
  | nil => rfl
  | cons held _ ih => rw [List.filterMap_cons_some held, ih]

/-- Every captured document is held at one of the paths. -/
theorem held_of_capture {s : Store} {paths : List Path} {documents : List Document}
    (h : s.capture paths = .ok documents) : ∀ d ∈ documents, ∃ p ∈ paths, s.get? p = some d := by
  rw [capture_eq_ok_iff] at h
  induction h with
  | nil => simp
  | cons held _ ih =>
    rw [List.forall_mem_cons]
    refine ⟨⟨_, List.mem_cons_self, held⟩, fun d hd => ?_⟩
    obtain ⟨p, hp, held⟩ := ih d hd
    exact ⟨p, List.mem_cons_of_mem _ hp, held⟩

theorem captured_of_mem {s : Store} {paths : List Path} {documents : List Document}
    (h : s.capture paths = .ok documents) : ∀ p ∈ paths, ∃ d ∈ documents, s.get? p = some d := by
  rw [capture_eq_ok_iff] at h
  induction h with
  | nil => simp
  | cons held _ ih =>
    rw [List.forall_mem_cons]
    refine ⟨⟨_, List.mem_cons_self, held⟩, fun p hp => ?_⟩
    obtain ⟨d, hd, held⟩ := ih p hp
    exact ⟨d, List.mem_cons_of_mem _ hd, held⟩

/-- In the history of one store places and versions tell what is captured. -/
theorem LeadsTo.capture_eq {s t : Store} (h : s.LeadsTo t) (hs : s.Sound) {paths : List Path}
    {documents documents' : List Document} (captured : s.capture paths = .ok documents)
    (captured' : t.capture paths = .ok documents')
    (versions : documents.map (·.version) = documents'.map (·.version)) : documents = documents' := by
  rw [capture_eq_ok_iff] at captured captured'
  induction captured generalizing documents' with
  | nil =>
    cases captured'
    rfl
  | cons held _ ih =>
    cases captured' with
    | cons held' more =>
      obtain ⟨same, versions⟩ := List.cons.inj versions
      rw [h.held_eq hs held held' same, ih more versions]

/-- A capture comes out alike in every store that holds what it found. -/
theorem capture_of_held {s t : Store} {paths : List Path} {documents : List Document}
    (h : t.capture paths = .ok documents)
    (holds : ∀ d ∈ documents, ∀ p, t.get? p = some d → s.get? p = some d) :
    s.capture paths = .ok documents := by
  rw [capture_eq_ok_iff] at h ⊢
  induction h with
  | nil => exact .nil
  | cons held _ ih =>
    rw [List.forall_mem_cons] at holds
    exact .cons (holds.1 _ held) (ih holds.2)

end Store
end CodeWorkspace
