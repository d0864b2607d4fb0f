import CodeWorkspace.Diagnostic
import CodeWorkspace.Text.LineTable
import Mathlib.Data.List.Basic

/-! Lines of a text that is put together from two. The text in front keeps its places; behind a newline, those of the
other text stand in their columns, as many lines further down as there are newlines in front. -/
namespace CodeWorkspace

def Position.down (p : Position) (lines : Nat) : Position := ⟨lines + p.line, p.column⟩

def Span.down (s : Span) (lines : Nat) : Span := ⟨s.start.down lines, s.stop.down lines⟩

def Diagnostic.down (d : Diagnostic) (lines : Nat) : Diagnostic := { d with span := d.span.map (·.down lines) }

def ByteRange.shift (r : ByteRange) (offset : Nat) : ByteRange := ⟨offset + r.start, offset + r.stop⟩

namespace LineTable

theorem breaksFrom_append (offset : Nat) (a b : List Char) :
    breaksFrom offset (a ++ b) = breaksFrom offset a ++ breaksFrom (offset + byteLength a) b := by
  induction a generalizing offset with
  | nil => rfl
  | cons c a ih =>
    rw [List.cons_append, breaksFrom, breaksFrom, ih, byteLength_cons, Nat.add_assoc]
    split <;> rfl

theorem breaksFrom_shift (offset start : Nat) (text : List Char) :
    breaksFrom (offset + start) text = (breaksFrom start text).map (offset + ·) := by
  induction text generalizing start with
  | nil => rfl
  | cons c text ih =>
    rw [breaksFrom, breaksFrom, Nat.add_assoc, ih]
    split <;> rfl

theorem mem_breaksFrom {offset b : Nat} {text : List Char} (mem : b ∈ breaksFrom offset text) :
    offset < b ∧ b ≤ offset + byteLength text := by
  induction text generalizing offset with
  | nil => cases mem
  | cons c text ih =>
    have := c.utf8Size_pos
    have later (mem : b ∈ breaksFrom (offset + c.utf8Size) text) :
        offset < b ∧ b ≤ offset + byteLength (c :: text) := by
      have := ih mem
      rw [byteLength_cons]
      omega
    rw [breaksFrom] at mem
    split at mem
    · rcases List.mem_cons.mp mem with rfl | mem
      · rw [byteLength_cons]
        omega
      · exact later mem
    · exact later mem

theorem length_breaksFrom (offset : Nat) (text : List Char) : (breaksFrom offset text).length = text.count '\n' := by
  induction text generalizing offset with
  | nil => rfl
  | cons c text ih =>
    rw [breaksFrom, List.count_cons]
    split
    · next newline => simp [ih, newline]
    · next other => simp [ih, other]

/-- The last line of a text that ends in a newline is empty. -/
theorem getLastD_breaksFrom {text : List Char} (newline : text.getLast? = some '\n') (offset start : Nat) :
    (breaksFrom offset text).getLastD start = offset + byteLength text := by
  obtain ⟨front, rfl⟩ := List.getLast?_eq_some_iff.mp newline
  rw [breaksFrom_append, byteLength_append, ← Nat.add_assoc]
  exact List.getLastD_concat

/-! ## Walking the lines -/

theorem locate_before {offset : Nat} {behind : List Nat} (before : ∀ b ∈ behind, offset < b) (line start : Nat)
    (front : List Nat) : locate offset line start (front ++ behind) = locate offset line start front := by
  induction front generalizing line start with
  | nil =>
    cases behind with
    | nil => rfl
    | cons b behind => rw [List.nil_append, locate, locate, if_neg (Nat.not_le_of_lt (before b List.mem_cons_self))]
  | cons b front ih => rw [List.cons_append, locate, locate, ih]

theorem locate_behind {offset : Nat} {front : List Nat} (passed : ∀ b ∈ front, b ≤ offset) (line start : Nat)
    (behind : List Nat) : locate offset line start (front ++ behind) =
      locate offset (front.length + line) (front.getLastD start) behind := by
  induction front generalizing line start with
  | nil => simp
  | cons b front ih =>
    obtain ⟨first, passed⟩ := List.forall_mem_cons.mp passed
    rw [List.cons_append, locate, if_pos first, ih passed, List.length_cons, List.getLastD_cons,
      Nat.add_right_comm, Nat.add_assoc]

theorem locate_shift (offset lines place line start : Nat) (breaks : List Nat) :
    locate (offset + place) (lines + line) (offset + start) (breaks.map (offset + ·)) =
      (locate place line start breaks).down lines := by
  induction breaks generalizing line start with
  | nil => simp [locate, Position.down, Nat.add_sub_add_left]
  | cons b breaks ih =>
    rw [List.map_cons, locate, locate]
    by_cases passed : b ≤ place
    · rw [if_pos passed, if_pos (by omega), Nat.add_assoc, ih]
    · rw [if_neg passed, if_neg (by omega), Position.down, Nat.add_sub_add_left]

/-! ## Two texts -/

/-- The table of a text with all offsets as far in as they are. -/
def unbounded (text : List Char) : LineTable := ⟨breaksFrom 0 text, byteLength text⟩

/-- Where the end of a text fits a word, so do the starts of its lines. -/
theorem ofChars_eq_unbounded {text : List Char} (small : byteLength text < UInt32.size) :
    ofChars text = unbounded text := by
  have breaks : (breaksFrom 0 text).map saturateOffset = breaksFrom 0 text := by
    refine (List.map_congr_left fun b mem => ?_).trans (List.map_id _)
    have := (mem_breaksFrom mem).2
    exact saturateOffset_of_lt (by omega)
  rw [ofChars, breaks, saturateOffset_of_lt small, unbounded]

theorem position_left {a : List Char} {place : Nat} (le : place ≤ byteLength a) (b : List Char) :
    (unbounded (a ++ b)).position place = (unbounded a).position place := by
  have before : ∀ x ∈ breaksFrom (0 + byteLength a) b, place < x := by
    intro x mem
    have := (mem_breaksFrom mem).1
    omega
  simp only [position, unbounded, byteLength_append, breaksFrom_append]
  rw [Nat.min_eq_left (Nat.le_add_right_of_le le), Nat.min_eq_left le, locate_before before]

theorem position_right {a : List Char} (newline : a.getLast? = some '\n') (b : List Char) (place : Nat) :
    (unbounded (a ++ b)).position (byteLength a + place) = ((unbounded b).position place).down (a.count '\n') := by
  have passed : ∀ x ∈ breaksFrom 0 a, x ≤ byteLength a + min place (byteLength b) := by
    intro x mem
    have := (mem_breaksFrom mem).2
    omega
  have behind : breaksFrom (0 + byteLength a) b = (breaksFrom 0 b).map (byteLength a + ·) := by
    rw [Nat.zero_add, ← breaksFrom_shift, Nat.add_zero]
  have shifted := locate_shift (byteLength a) (a.count '\n') (min place (byteLength b)) 0 0 (breaksFrom 0 b)
  simp only [position, unbounded, byteLength_append, breaksFrom_append, Nat.add_min_add_left]
  rw [locate_behind passed, length_breaksFrom, getLastD_breaksFrom newline, behind, Nat.zero_add]
  exact shifted

theorem span_left {a : List Char} {r : ByteRange} (start : r.start ≤ byteLength a) (stop : r.stop ≤ byteLength a)
    (b : List Char) : (unbounded (a ++ b)).span r = (unbounded a).span r := by
  rw [span, position_left start, position_left stop, span]

theorem span_right {a : List Char} (newline : a.getLast? = some '\n') (b : List Char) (r : ByteRange) :
    (unbounded (a ++ b)).span (r.shift (byteLength a)) = ((unbounded b).span r).down (a.count '\n') := by
  rw [span, ByteRange.shift, position_right newline, position_right newline, span, Span.down]

end LineTable
end CodeWorkspace
