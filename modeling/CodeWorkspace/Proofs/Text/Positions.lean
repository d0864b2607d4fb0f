import CodeWorkspace.Proofs.Text.Lines
import Mathlib.Data.List.DropRight

/-! Positions against the bytes of a text: the line is the number of newlines in front, the column the number of bytes
behind the last of them. Offsets may stand inside a character, so everything here goes byte by byte. -/
namespace CodeWorkspace

/-- The bytes of a text in UTF-8. -/
def utf8 (text : String) : List UInt8 := text.toUTF8.data.toList

def newline : UInt8 := 10

/-- The place behind these bytes at the front of a text. -/
def Position.behind (front : List UInt8) : Position :=
  ⟨front.count newline, (front.rtakeWhile (· ≠ newline)).length⟩

theorem utf8_eq (text : String) : utf8 text = text.toList.flatMap String.utf8EncodeChar := by
  have encoded : text.toUTF8 = text.toList.utf8Encode := by
    rw [String.toUTF8_eq_toByteArray, ← String.toByteArray_ofList, String.ofList_toList]
  rw [utf8, encoded, List.utf8Encode, List.data_toByteArray]

theorem length_utf8 (text : String) : (utf8 text).length = byteLength text.toList := by
  rw [utf8_eq]
  induction text.toList with
  | nil => rfl
  | cons c rest ih => rw [List.flatMap_cons, List.length_append, String.length_utf8EncodeChar, ih, byteLength_cons]

/-- Only a newline is encoded with the byte of a newline. -/
theorem newline_not_mem {c : Char} (other : c ≠ '\n') : newline ∉ String.utf8EncodeChar c := by
  have value : c.val.toNat ≠ 10 := fun same => other (Char.ext (UInt32.toNat_inj.mp same))
  have differs {n : Nat} (le : n < 256) (ne : n ≠ 10) : newline ≠ UInt8.ofNat n := by
    intro same
    have := congrArg UInt8.toNat same
    rw [UInt8.toNat_ofNat', Nat.mod_eq_of_lt le] at this
    exact ne this.symm
  unfold String.utf8EncodeChar
  dsimp only
  -- All bytes of longer encodings have their highest bit set.
  repeat' split
  all_goals
    simp only [List.mem_cons, List.not_mem_nil, or_false, not_or]
    repeat' apply And.intro
    all_goals exact differs (by omega) (by omega)

namespace LineTable

/-- The offsets behind the newlines among these bytes, the first of which stands at `offset`. -/
def newlineEnds (offset : Nat) : List UInt8 → List Nat
  | [] => []
  | b :: rest => if b = newline then (offset + 1) :: newlineEnds (offset + 1) rest else newlineEnds (offset + 1) rest

theorem newlineEnds_append (offset : Nat) (front behind : List UInt8) :
    newlineEnds offset (front ++ behind) = newlineEnds offset front ++ newlineEnds (offset + front.length) behind := by
  induction front generalizing offset with
  | nil => rfl
  | cons b front ih =>
    rw [List.cons_append, newlineEnds, newlineEnds, ih, List.length_cons, Nat.add_assoc, Nat.add_comm 1]
    split <;> rfl

theorem newlineEnds_of_not_mem {bytes : List UInt8} (none : newline ∉ bytes) (offset : Nat) :
    newlineEnds offset bytes = [] := by
  induction bytes generalizing offset with
  | nil => rfl
  | cons b rest ih =>
    rw [List.mem_cons, not_or] at none
    rw [newlineEnds, if_neg (Ne.symm none.1), ih none.2]

theorem mem_newlineEnds {offset n : Nat} {bytes : List UInt8} (mem : n ∈ newlineEnds offset bytes) :
    offset < n ∧ n ≤ offset + bytes.length := by
  induction bytes generalizing offset with
  | nil => cases mem
  | cons b rest ih =>
    have later (mem : n ∈ newlineEnds (offset + 1) rest) : offset < n ∧ n ≤ offset + (b :: rest).length := by
      have := ih mem
      rw [List.length_cons]
      omega
    rw [newlineEnds] at mem
    split at mem
    · rcases List.mem_cons.mp mem with rfl | mem
      · simp
      · exact later mem
    · exact later mem

theorem length_newlineEnds (offset : Nat) (bytes : List UInt8) :
    (newlineEnds offset bytes).length = bytes.count newline := by
  induction bytes generalizing offset with
  | nil => rfl
  | cons b rest ih =>
    rw [newlineEnds, List.count_cons]
    split
    · next newline => simp [ih, newline]
    · next other => simp [ih, other]

/-- The table of a text is what a pass over its bytes finds. -/
theorem breaksFrom_eq_newlineEnds (offset : Nat) (text : List Char) :
    breaksFrom offset text = newlineEnds offset (text.flatMap String.utf8EncodeChar) := by
  induction text generalizing offset with
  | nil => rfl
  | cons c rest ih =>
    rw [breaksFrom, List.flatMap_cons, newlineEnds_append, String.length_utf8EncodeChar, ← ih]
    split
    · next newline =>
      subst newline
      rfl
    · next other => rw [newlineEnds_of_not_mem (newline_not_mem other), List.nil_append]

theorem breaks_unbounded (text : String) : (unbounded text.toList).breaks = newlineEnds 0 (utf8 text) := by
  rw [utf8_eq, ← breaksFrom_eq_newlineEnds]
  rfl

theorem length_unbounded (text : String) : (unbounded text.toList).length = (utf8 text).length :=
  (length_utf8 text).symm

/-- A line begins behind the last newline in front of it. -/
theorem getLastD_newlineEnds (front : List UInt8) :
    (newlineEnds 0 front).getLastD 0 + (front.rtakeWhile (· ≠ newline)).length = front.length := by
  induction front using List.reverseRecOn with
  | nil => rfl
  | append_singleton front b ih =>
    rw [newlineEnds_append, List.rtakeWhile_concat, Nat.zero_add, newlineEnds, newlineEnds]
    by_cases newline : b = newline
    · simp [newline]
    · rw [if_neg newline, List.append_nil, if_pos (by simpa using newline), List.length_append, List.length_append]
      omega

/-- No newline stands behind the start of the last line, and one right before it, unless it is the first line. -/
theorem last_line (front : List UInt8) :
    ((newlineEnds 0 front).getLastD 0 = 0 ∨ front[(newlineEnds 0 front).getLastD 0 - 1]? = some newline) ∧
      ∀ i, (newlineEnds 0 front).getLastD 0 ≤ i → front[i]? ≠ some newline := by
  have parts : front.rdropWhile (· ≠ newline) ++ front.rtakeWhile (· ≠ newline) = front :=
    List.rdropWhile_append_rtakeWhile
  have start : (newlineEnds 0 front).getLastD 0 = (front.rdropWhile (· ≠ newline)).length := by
    have last := getLastD_newlineEnds front
    have := congrArg List.length parts
    rw [List.length_append] at this
    omega
  rw [start]
  constructor
  · by_cases first : front.rdropWhile (· ≠ newline) = []
    · exact .inl (by rw [first, List.length_nil])
    · have ends := List.rdropWhile_last_not (· ≠ newline) front first
      have positive := List.length_pos_iff.mpr first
      have initial := List.rdropWhile_prefix (· ≠ newline) front
      have inside : (front.rdropWhile (· ≠ newline)).length - 1 < (front.rdropWhile (· ≠ newline)).length := by omega
      rw [List.getLast_eq_getElem, initial.getElem inside] at ends
      exact .inr (List.getElem?_eq_some_iff.mpr ⟨Nat.lt_of_lt_of_le inside initial.length_le, by simpa using ends⟩)
  · intro i le at_
    rw [← parts, List.getElem?_append_right le] at at_
    simpa using List.mem_rtakeWhile_imp (List.mem_of_getElem? at_)

/-- The offsets at which the lines of a text begin, the first one at 0. -/
def starts (t : LineTable) : List Nat := 0 :: t.breaks

theorem pairwise_newlineEnds (offset : Nat) (bytes : List UInt8) : (newlineEnds offset bytes).Pairwise (· < ·) := by
  induction bytes generalizing offset with
  | nil => exact .nil
  | cons b rest ih =>
    rw [newlineEnds]
    split
    · exact .cons (fun n mem => (mem_newlineEnds mem).1) (ih _)
    · exact ih _

theorem pairwise_starts (text : String) : (unbounded text.toList).starts.Pairwise (· < ·) := by
  rw [starts, breaks_unbounded]
  exact .cons (fun n mem => (mem_newlineEnds mem).1) (pairwise_newlineEnds 0 _)

/-- The lines up to an offset and those behind it. -/
theorem breaks_split (text : String) (offset : Nat) :
    ∃ behind, (unbounded text.toList).breaks = newlineEnds 0 ((utf8 text).take offset) ++ behind ∧
      (∀ n ∈ newlineEnds 0 ((utf8 text).take offset), n ≤ min offset (utf8 text).length) ∧
      ∀ n ∈ behind, min offset (utf8 text).length < n := by
  have length : ((utf8 text).take offset).length = min offset (utf8 text).length := List.length_take
  refine ⟨newlineEnds (min offset (utf8 text).length) ((utf8 text).drop offset), ?_, fun n mem => ?_, fun n mem => ?_⟩
  · have split := newlineEnds_append 0 ((utf8 text).take offset) ((utf8 text).drop offset)
    rwa [List.take_append_drop, Nat.zero_add, length, ← breaks_unbounded] at split
  · have := (mem_newlineEnds mem).2
    omega
  · exact (mem_newlineEnds mem).1

/-- Whether an offset is past the end or not, and wherever in a character it stands. -/
theorem position_eq_behind (text : String) (offset : Nat) :
    (unbounded text.toList).position offset = Position.behind ((utf8 text).take offset) := by
  obtain ⟨behind, split, passed, before⟩ := breaks_split text offset
  have walked := locate_behind passed 0 0 []
  have last := getLastD_newlineEnds ((utf8 text).take offset)
  rw [List.append_nil] at walked
  rw [List.length_take] at last
  rw [position, length_unbounded, split, locate_before before, walked, locate, length_newlineEnds, Position.behind,
    Nat.add_zero]
  congr 1
  omega

/-- The lines up to the one of an offset are those that do not begin behind it. -/
theorem start_le_iff {text : String} {i start : Nat} (at_ : (unbounded text.toList).starts[i]? = some start)
    (offset : Nat) :
    start ≤ min offset (utf8 text).length ↔ i ≤ ((unbounded text.toList).position offset).line := by
  obtain ⟨behind, split, passed, before⟩ := breaks_split text offset
  rw [position_eq_behind, Position.behind, ← length_newlineEnds 0]
  rw [starts, split, ← List.cons_append] at at_
  rcases Nat.lt_or_ge i (0 :: newlineEnds 0 ((utf8 text).take offset)).length with inside | outside
  · rw [List.getElem?_append_left inside] at at_
    refine iff_of_true ?_ (Nat.lt_succ_iff.mp inside)
    rcases List.mem_cons.mp (List.mem_of_getElem? at_) with rfl | mem
    · exact Nat.zero_le _
    · exact passed start mem
  · rw [List.getElem?_append_right outside] at at_
    exact iff_of_false (Nat.not_le_of_lt (before start (List.mem_of_getElem? at_))) (Nat.not_le_of_lt outside)

/-- The line of an offset begins no later than it, behind the last newline there, and the column says how much later. -/
theorem start_of_position (text : String) (offset : Nat) :
    ∃ start, (unbounded text.toList).starts[((unbounded text.toList).position offset).line]? = some start ∧
      start + ((unbounded text.toList).position offset).column = min offset (utf8 text).length ∧
      (start = 0 ∨ (utf8 text)[start - 1]? = some newline) ∧
      ∀ i, start ≤ i → i < min offset (utf8 text).length → (utf8 text)[i]? ≠ some newline := by
  obtain ⟨behind, split, passed, before⟩ := breaks_split text offset
  have same {i : Nat} (lt : i < min offset (utf8 text).length) :
      ((utf8 text).take offset)[i]? = (utf8 text)[i]? :=
    List.getElem?_take_of_lt (Nat.lt_of_lt_of_le lt (Nat.min_le_left ..))
  rw [position_eq_behind, Position.behind, ← length_newlineEnds 0]
  rw [← List.length_take] at same ⊢
  generalize front_eq : (utf8 text).take offset = front at *
  have last := getLastD_newlineEnds front
  obtain ⟨closed, ends⟩ := last_line front
  refine ⟨(newlineEnds 0 front).getLastD 0, ?_, last, closed.imp_right fun at_ => ?_, fun i le lt => ?_⟩
  · rw [starts, split, ← List.cons_append, List.getElem?_append_left (Nat.lt_succ_self _)]
    have here : (0 :: newlineEnds 0 front).getLast? = some ((newlineEnds 0 front).getLastD 0) := by
      rw [List.getLast?_cons, List.getLastD_eq_getLast?]
    rwa [List.getLast?_eq_getElem?, List.length_cons, Nat.add_sub_cancel] at here
  · rw [← same (List.getElem?_eq_some_iff.mp at_).1, at_]
  · rw [← same lt]
    exact ends i le

end LineTable

/-! ## Order -/

namespace Position

theorem lt_trans {p q r : Position} (h : p < q) (h' : q < r) : p < r := by
  rw [lt_def] at *
  omega

theorem le_iff_not_lt {p q : Position} : p ≤ q ↔ ¬ q < p := by
  rw [le_def, lt_def]
  omega

/-- One byte further on. -/
theorem behind_lt (front : List UInt8) (b : UInt8) : behind front < behind (front ++ [b]) := by
  rw [lt_def, behind, behind, List.count_append, List.rtakeWhile_concat]
  by_cases newline : b = newline
  · subst newline
    exact .inl (by simp)
  · refine .inr ⟨?_, ?_⟩
    · simp [newline]
    · rw [if_pos (by simpa using newline), List.length_append]
      exact Nat.lt_succ_self _

end Position

namespace LineTable

theorem position_lt {text : String} {offset offset' : Nat} (lt : offset < offset')
    (le : offset' ≤ (utf8 text).length) :
    (unbounded text.toList).position offset < (unbounded text.toList).position offset' := by
  have step {n : Nat} (lt : n < (utf8 text).length) :
      (unbounded text.toList).position n < (unbounded text.toList).position (n + 1) := by
    rw [position_eq_behind, position_eq_behind, ← List.take_append_getElem lt]
    exact Position.behind_lt ..
  induction offset', lt using Nat.le_induction with
  | base => exact step le
  | succ n _ ih => exact Position.lt_trans (ih (by omega)) (step le)

theorem position_lt_iff {text : String} {offset offset' : Nat} (le : offset ≤ (utf8 text).length)
    (le' : offset' ≤ (utf8 text).length) :
    (unbounded text.toList).position offset < (unbounded text.toList).position offset' ↔ offset < offset' := by
  refine ⟨fun lt => ?_, fun lt => position_lt lt le'⟩
  rcases Nat.lt_trichotomy offset offset' with less | rfl | more
  · exact less
  · exact absurd lt (by simp [Position.lt_def])
  · have := Position.lt_trans lt (position_lt more le)
    exact absurd this (by simp [Position.lt_def])

theorem contains_span_iff {text : String} {r : ByteRange} {offset : Nat} (start : r.start ≤ (utf8 text).length)
    (stop : r.stop ≤ (utf8 text).length) (le : offset ≤ (utf8 text).length) :
    ((unbounded text.toList).span r).contains ((unbounded text.toList).position offset) = true ↔
      r.start ≤ offset ∧ offset < r.stop := by
  rw [Span.contains_iff, span, Position.le_iff_not_lt, position_lt_iff le start, position_lt_iff le stop, Nat.not_lt]

/-- What a binary search in an ascending list may answer: where the number stands, or where one would put it. -/
inductive Searched (numbers : List Nat) (n : Nat) : Except Nat Nat → Prop
  | found {i : Nat} (here : numbers[i]? = some n) : Searched numbers n (.ok i)
  | absent {next : Nat} (le : next ≤ numbers.length) (before : ∀ m ∈ numbers.take next, m < n)
      (behind : ∀ m ∈ numbers.drop next, n < m) : Searched numbers n (.error next)

theorem start_line (text : String) (offset : Nat) :
    ∃ start, (unbounded text.toList).starts[((unbounded text.toList).position offset).line]? = some start ∧
      start ≤ min offset (utf8 text).length := by
  obtain ⟨start, here, reach, -⟩ := start_of_position text offset
  exact ⟨start, here, by omega⟩

/-- However the line of an offset is searched for, it is found, or else the place behind it. -/
theorem line_of_searched {text : String} {offset : Nat} {answer : Except Nat Nat}
    (searched : Searched (unbounded text.toList).starts (min offset (utf8 text).length) answer) :
    match answer with
    | .ok line => line = ((unbounded text.toList).position offset).line
    | .error next => next = ((unbounded text.toList).position offset).line + 1 := by
  obtain ⟨start, here, reach⟩ := start_line text offset
  have ascending := List.pairwise_iff_getElem.mp (pairwise_starts text)
  cases searched with
  | @found i at_ =>
    have le := (start_le_iff at_ offset).mp (Nat.le_refl _)
    refine Nat.le_antisymm le (Nat.not_lt.mp fun lt => ?_)
    obtain ⟨inside, i_eq⟩ := List.getElem?_eq_some_iff.mp at_
    obtain ⟨inside', line_eq⟩ := List.getElem?_eq_some_iff.mp here
    have := ascending _ _ inside inside' lt
    omega
  | @absent next le before behind =>
    apply Nat.le_antisymm
    · -- The line behind would be in front of the offset.
      refine Nat.not_lt.mp fun lt => ?_
      have at_ := List.getElem?_eq_getElem (Nat.lt_of_lt_of_le lt le)
      have mem : (unbounded text.toList).starts[((unbounded text.toList).position offset).line + 1] ∈
          (unbounded text.toList).starts.take next :=
        List.mem_take_iff_getElem.mpr ⟨_, by omega, rfl⟩
      have := (start_le_iff at_ offset).mp (Nat.le_of_lt (before _ mem))
      omega
    · refine Nat.not_lt.mp fun lt => ?_
      have mem : start ∈ (unbounded text.toList).starts.drop next := by
        rw [List.mem_iff_getElem?]
        exact ⟨((unbounded text.toList).position offset).line - next,
          by rw [List.getElem?_drop, ← here]; congr 1; omega⟩
      have := behind start mem
      omega

theorem ofText_eq_unbounded {text : String} (small : (utf8 text).length < UInt32.size) :
    ofText text = unbounded text.toList := ofChars_eq_unbounded (by rwa [← length_utf8])

/-- The offsets of a text of less than four gigabytes fit their words, and the table then gives each the line that the
newlines in front of it count, with the bytes behind the last of these as its column. -/
theorem positions_faithful (text : String) (small : (utf8 text).length < UInt32.size) :
    (ofText text = ⟨newlineEnds 0 (utf8 text), (utf8 text).length⟩ ∧
        ∀ n ∈ (ofText text).length :: (ofText text).starts, saturateOffset n = n) ∧
      (∀ offset,
        ((ofText text).position offset).line =
            ((utf8 text).take (min offset (utf8 text).length)).count newline ∧
          (∃ start, (ofText text).starts[((ofText text).position offset).line]? = some start ∧
            start + ((ofText text).position offset).column = min offset (utf8 text).length ∧
            (start = 0 ∨ (utf8 text)[start - 1]? = some newline) ∧
            ∀ i, start ≤ i → i < min offset (utf8 text).length → (utf8 text)[i]? ≠ some newline) ∧
          ∀ answer, Searched (ofText text).starts (min offset (utf8 text).length) answer →
            match answer with
            | .ok line => line = ((ofText text).position offset).line
            | .error next => 0 < next ∧ next - 1 = ((ofText text).position offset).line) ∧
      (∀ offset offset', offset < offset' → offset' ≤ (utf8 text).length →
        (ofText text).position offset < (ofText text).position offset') ∧
      ∀ start stop offset, start ≤ stop → stop ≤ (utf8 text).length → offset ≤ (utf8 text).length →
        (((ofText text).span ⟨start, stop⟩).contains ((ofText text).position offset) = true ↔
          start ≤ offset ∧ offset < stop) := by
  rw [ofText_eq_unbounded small]
  refine ⟨⟨?_, ?_⟩, fun offset => ⟨?_, start_of_position text offset, fun answer searched => ?_⟩,
    fun _ _ => position_lt, fun _ _ _ le inside here => contains_span_iff (Nat.le_trans le inside) inside here⟩
  · rw [← breaks_unbounded, ← length_unbounded]
  · intro n mem
    refine saturateOffset_of_lt (Nat.lt_of_le_of_lt ?_ small)
    rw [starts, breaks_unbounded, length_unbounded, List.mem_cons, List.mem_cons] at mem
    rcases mem with rfl | rfl | mem
    · exact Nat.le_refl _
    · exact Nat.zero_le _
    · have := (mem_newlineEnds mem).2
      omega
  · rw [position_eq_behind, Position.behind, ← List.take_eq_take_min]
  · have here := line_of_searched searched
    cases answer with
    | ok line => exact here
    | error next => exact ⟨by dsimp only at here; omega, by dsimp only at here; omega⟩

/-- An empty line, a letter of two bytes and no newline at the end. -/
theorem positions_faithful_lines :
    (utf8 "ab\n\né").length < UInt32.size ∧
      ((ofText "ab\n\né").position 5).line = 2 ∧
      (ofText "ab\n\né").position 3 < (ofText "ab\n\né").position 5 ∧
      ((ofText "ab\n\né").span ⟨2, 5⟩).contains ((ofText "ab\n\né").position 4) = true := by
  have bytes : utf8 "ab\n\né" = [97, 98, 10, 10, 195, 169] := by
    rw [utf8_eq]
    rfl
  have small : (utf8 "ab\n\né").length < UInt32.size := by
    rw [bytes]
    decide
  obtain ⟨-, places, ascending, within⟩ := positions_faithful "ab\n\né" small
  rw [bytes] at places ascending within
  exact ⟨small, (places 5).1, ascending 3 5 (by decide) (by decide),
    (within 2 5 4 (by decide) (by decide) (by decide)).mpr (by decide)⟩

end LineTable
end CodeWorkspace
