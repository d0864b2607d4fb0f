import CodeWorkspace.Proofs.Store.Succession
import Mathlib.Data.List.Induction

/-! What a store holds after any sequence of writes and evictions, told from the sequence alone. Versions count the
writes of a place; what is held is its last write, unless it was evicted since. -/
namespace CodeWorkspace.Store

namespace Edit

def path : Edit → Path
  | put path _ => path
  | evict path => path

def isPut : Edit → Bool
  | put .. => true
  | evict _ => false

/-- Whether an edit writes a place, under whatever spelling. -/
def writes (p : Path) (e : Edit) : Bool := e.isPut && e.path.same p

end Edit

/-- The number of writes of a place. -/
def writesOf (p : Path) (edits : List Edit) : Nat := edits.countP (Edit.writes p)

/-- A sequence ends with this document written under this spelling and text: it was the last that happened to its
place, and the version counts the writes up to it. -/
def Leaves (edits : List Edit) (p : Path) (d : Document) : Prop :=
  ∃ before after, edits = before ++ .put d.path d.text :: after ∧ d.path.same p = true ∧
    (∀ e ∈ after, e.path.same p = false) ∧ d.version = 1 + writesOf p before

variable {s : Store} {e : Edit} {p : Path} {edits : List Edit} {d : Document}

theorem writesOf_append (p : Path) (edits more : List Edit) :
    writesOf p (edits ++ more) = writesOf p edits + writesOf p more := List.countP_append

theorem writesOf_le (p : Path) (edits : List Edit) : writesOf p edits ≤ edits.countP Edit.isPut :=
  List.countP_mono_left fun _ _ writes => (Bool.and_eq_true_iff.mp writes).1

/-! ## One edit -/

theorem lastVersion_edit (s : Store) (e : Edit) (p : Path) :
    (s.edit e).lastVersion p = s.lastVersion p + writesOf p [e] := by
  cases e with
  | put q text =>
    rw [edit, lastVersion_put, writesOf, List.countP_singleton]
    by_cases same : q.same p = true <;> simp [Edit.writes, Edit.isPut, Edit.path, same]
  | evict q =>
    rw [edit, lastVersion_evict]
    rfl

/-- An edit of one place is not seen at another. -/
theorem get?_edit_of_ne (other : e.path.same p = false) : (s.edit e).get? p = s.get? p := by
  cases e with
  | put q text => rw [edit, get?_put, if_neg (by simpa [Edit.path] using other)]
  | evict q => rw [edit, get?_evict, if_neg (by simpa [Edit.path] using other)]

theorem lastVersion_edit_of_ne (other : e.path.same p = false) : (s.edit e).lastVersion p = s.lastVersion p := by
  rw [lastVersion_edit, writesOf, List.countP_singleton, Edit.writes, other, Bool.and_false]
  rfl

/-! ## Any number of them -/

theorem lastVersion_edited (s : Store) (edits : List Edit) (p : Path) :
    (s.edited edits).lastVersion p = s.lastVersion p + writesOf p edits := by
  induction edits generalizing s with
  | nil => rfl
  | cons e rest ih =>
    have split := writesOf_append p [e] rest
    rw [List.singleton_append] at split
    rw [split, ← Nat.add_assoc, ← lastVersion_edit]
    exact ih (s.edit e)

theorem lastVersion_history (edits : List Edit) (p : Path) : (edited {} edits).lastVersion p = writesOf p edits := by
  rw [lastVersion_edited]
  exact Nat.zero_add _

theorem get?_edited_of_ne (others : ∀ e ∈ edits, e.path.same p = false) : (s.edited edits).get? p = s.get? p := by
  induction edits generalizing s with
  | nil => rfl
  | cons e rest ih =>
    rw [List.forall_mem_cons] at others
    exact (ih others.2).trans (get?_edit_of_ne others.1)

theorem get?_of_leaves (leaves : Leaves edits p d) : (edited {} edits).get? p = some d := by
  obtain ⟨before, after, rfl, same, others, version⟩ := leaves
  have then_ : edited {} (before ++ .put d.path d.text :: after) =
      ((edited {} before).put d.path d.text).edited after := edited_append {} before _
  rw [then_, get?_edited_of_ne others, get?_put, if_pos same, lastVersion_history, Nat.add_comm, ← version]

theorem leaves_of_get? (held : (edited {} edits).get? p = some d) : Leaves edits p d := by
  induction edits using List.reverseRecOn with
  | nil => simp [edited, get?, record?] at held
  | append_singleton front e ih =>
    have last : edited {} (front ++ [e]) = (edited {} front).edit e := edited_append {} front [e]
    rw [last] at held
    by_cases same : e.path.same p = true
    · -- The last edit is of this place, and it was no eviction.
      cases e with
      | put q text =>
        rw [Edit.path] at same
        rw [edit, get?_put, if_pos same, lastVersion_history, Nat.add_comm] at held
        cases held
        exact ⟨front, [], rfl, same, by simp, rfl⟩
      | evict q =>
        rw [Edit.path] at same
        rw [edit, get?_evict, if_pos same] at held
        cases held
    · rw [Bool.not_eq_true] at same
      rw [get?_edit_of_ne same] at held
      obtain ⟨before, after, rfl, place, others, version⟩ := ih held
      refine ⟨before, after ++ [e], by simp, place, ?_, version⟩
      exact List.forall_mem_append.mpr ⟨others, by simpa using same⟩

theorem read_eq_ok_iff : s.read p = .ok d ↔ s.get? p = some d := by
  unfold read
  split <;> simp_all

theorem contains_history_iff :
    (edited {} edits).contains p = true ↔
      ∃ before q text after, edits = before ++ .put q text :: after ∧ q.same p = true ∧
        ∀ e ∈ after, e.path.same p = false := by
  rw [contains, Option.isSome_iff_exists]
  constructor
  · rintro ⟨d, held⟩
    obtain ⟨before, after, split, same, others, -⟩ := leaves_of_get? held
    exact ⟨before, d.path, d.text, after, split, same, others⟩
  · rintro ⟨before, q, text, after, split, same, others⟩
    exact ⟨⟨q, text, 1 + writesOf p before⟩, get?_of_leaves ⟨before, after, split, same, others, rfl⟩⟩

theorem version?_put (s : Store) (p : Path) (text : String) :
    (s.put p text).version? p = some (s.lastVersion p + 1) := by
  rw [version?, get?_put, if_pos (Path.same_refl p), Option.map_some]

/-- In any sequence of fewer than 2^64 writes, with evictions at any point, each write gets the number of writes of
its place up to it; a document is held just if it was not evicted since its last write, and is read as that write left
it; and no edit is seen at another place. -/
theorem versions_count_writes (edits : List Edit) (few : edits.countP Edit.isPut < UInt64.size) :
    (∀ before p text after, edits = before ++ .put p text :: after →
        ((edited {} before).put p text).version? p = some (1 + writesOf p before) ∧
          1 + writesOf p before < UInt64.size) ∧
      (∀ p, (edited {} edits).contains p = true ↔
        ∃ before q text after, edits = before ++ .put q text :: after ∧ q.same p = true ∧
          ∀ e ∈ after, e.path.same p = false) ∧
      (∀ p, (edited {} edits).contains p = false → (edited {} edits).read p = .error (.documentNotFound p)) ∧
      (∀ before q text after p, edits = before ++ .put q text :: after → q.same p = true →
        (∀ e ∈ after, e.path.same p = false) →
          (edited {} edits).read p = .ok ⟨q, text, 1 + writesOf p before⟩) ∧
      ∀ e p, e.path.same p = false →
        ((edited {} edits).edit e).read p = (edited {} edits).read p ∧
          ((edited {} edits).edit e).contains p = (edited {} edits).contains p ∧
          ((edited {} edits).edit e).lastVersion p = (edited {} edits).lastVersion p := by
  refine ⟨?_, fun p => contains_history_iff, fun p absent => ?_, ?_, fun e p other => ?_⟩
  · intro before p text after split
    refine ⟨by rw [version?_put, lastVersion_history, Nat.add_comm], ?_⟩
    have := writesOf_le p before
    rw [split, List.countP_append, List.countP_cons_of_pos rfl] at few
    omega
  · rw [contains, Option.isSome_eq_false_iff, Option.isNone_iff_eq_none] at absent
    rw [read, absent]
  · intro before q text after p split same others
    exact read_eq_ok_iff.mpr (get?_of_leaves ⟨before, after, split, same, others, rfl⟩)
  · have unseen := get?_edit_of_ne (s := edited {} edits) other
    exact ⟨by rw [read, read, unseen], by rw [contains, contains, unseen], lastVersion_edit_of_ne other⟩

/-- One place under three spellings, evicted between its writes. -/
def respelled : List Edit :=
  [.put ⟨"src/a.cs"⟩ "class A;", .evict ⟨"src//a.cs"⟩, .put ⟨"src/./a.cs"⟩ "class B;", .put ⟨"src/b.cs"⟩ ""]

theorem versions_count_writes_respelled :
    respelled.countP Edit.isPut < UInt64.size ∧
      (edited {} respelled).read ⟨"src/a.cs"⟩ = .ok ⟨⟨"src/./a.cs"⟩, "class B;", 2⟩ ∧
      ((edited {} respelled).edit (.evict ⟨"src/b.cs"⟩)).read ⟨"src/a.cs"⟩ =
        .ok ⟨⟨"src/./a.cs"⟩, "class B;", 2⟩ := by
  have few : respelled.countP Edit.isPut < UInt64.size := by decide
  obtain ⟨-, -, -, reads, unseen⟩ := versions_count_writes respelled few
  have read : (edited {} respelled).read ⟨"src/a.cs"⟩ = .ok ⟨⟨"src/./a.cs"⟩, "class B;", 2⟩ :=
    reads (respelled.take 2) ⟨"src/./a.cs"⟩ "class B;" [.put ⟨"src/b.cs"⟩ ""] ⟨"src/a.cs"⟩ rfl (by decide +kernel)
      (by decide +kernel)
  exact ⟨few, read, (unseen (.evict ⟨"src/b.cs"⟩) ⟨"src/a.cs"⟩ (by decide +kernel)).1.trans read⟩

end CodeWorkspace.Store
