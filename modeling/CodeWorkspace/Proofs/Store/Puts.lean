import CodeWorkspace.Proofs.Store.Succession
import CodeWorkspace.Solution.Loading

/-! Several documents put one after another: their versions all grow, and everything else is read as before. -/
namespace CodeWorkspace.Store

variable {s : Store} {puts : List (Path × String)}

theorem putAll_cons (s : Store) (w : Path × String) (rest : List (Path × String)) :
    s.putAll (w :: rest) = (s.put w.1 w.2).putAll rest := rfl

theorem Sound.putAll (h : s.Sound) (puts : List (Path × String)) : (s.putAll puts).Sound := by
  induction puts generalizing s with
  | nil => exact h
  | cons w rest ih => exact ih (h.put w.1 w.2)

theorem LeadsTo.putAll (s : Store) (puts : List (Path × String)) : s.LeadsTo (s.putAll puts) := by
  induction puts generalizing s with
  | nil => exact .refl s
  | cons w rest ih => exact (LeadsTo.put s w.1 w.2).trans (ih (s.put w.1 w.2))

theorem record?_putAll {p : Path} (others : ∀ w ∈ puts, w.1.same p = false) :
    (s.putAll puts).record? p = s.record? p := by
  induction puts generalizing s with
  | nil => rfl
  | cons w rest ih =>
    rw [List.forall_mem_cons] at others
    rw [putAll_cons, ih others.2, record?_put_of_ne others.1]

theorem get?_putAll {p : Path} (others : ∀ w ∈ puts, w.1.same p = false) : (s.putAll puts).get? p = s.get? p := by
  rw [get?, record?_putAll others, get?]

theorem lastVersion_putAll {p : Path} (others : ∀ w ∈ puts, w.1.same p = false) :
    (s.putAll puts).lastVersion p = s.lastVersion p := by
  unfold lastVersion
  rw [record?_putAll others]

/-- Where each place is put once, it gets one more version, with the text that was put. -/
theorem putAll_of_mem (s : Store) (apart : puts.Pairwise fun v w => v.1.same w.1 = false) {w : Path × String}
    (mem : w ∈ puts) :
    (s.putAll puts).get? w.1 = some ⟨w.1, w.2, s.lastVersion w.1 + 1⟩ ∧
      (s.putAll puts).lastVersion w.1 = s.lastVersion w.1 + 1 := by
  induction puts generalizing s with
  | nil => cases mem
  | cons v rest ih =>
    obtain ⟨front, apart⟩ := List.pairwise_cons.mp apart
    rw [putAll_cons]
    rcases List.mem_cons.mp mem with rfl | mem
    · have others : ∀ v ∈ rest, v.1.same w.1 = false := fun v hv => by rw [Path.same_comm, front v hv]
      have here := w.1.same_refl
      rw [get?_putAll others, lastVersion_putAll others, get?_put, lastVersion_put, if_pos here, if_pos here]
      exact ⟨rfl, rfl⟩
    · have other := front w mem
      have before : (s.put v.1 v.2).lastVersion w.1 = s.lastVersion w.1 := by
        rw [lastVersion_put, if_neg (by simp [other])]
      rw [← before]
      exact ih _ apart mem

theorem lastVersion_putAll_lt {p : Path} (written : ∃ w ∈ puts, w.1.same p = true) :
    s.lastVersion p < (s.putAll puts).lastVersion p := by
  induction puts generalizing s with
  | nil => simp at written
  | cons w rest ih =>
    obtain ⟨x, mem, same⟩ := written
    rw [putAll_cons]
    have here := (LeadsTo.put s w.1 w.2).lastVersion_le p
    rcases List.mem_cons.mp mem with rfl | mem
    · have later := (LeadsTo.putAll (s.put x.1 x.2) rest).lastVersion_le p
      rw [lastVersion_put, if_pos same] at later
      exact later
    · exact Nat.lt_of_le_of_lt here (ih ⟨x, mem, same⟩)

theorem capture_congr {t : Store} {paths : List Path} (same : ∀ p ∈ paths, s.get? p = t.get? p) :
    s.capture paths = t.capture paths := by
  induction paths with
  | nil => rfl
  | cons p rest ih =>
    rw [List.forall_mem_cons] at same
    rw [capture, capture, read, read, same.1, ih same.2]

end CodeWorkspace.Store
