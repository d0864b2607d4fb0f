import CodeWorkspace.Token.Scan

/-! Where the tokens of a text stand: one behind another, none of them empty, the last one within the text. As long as
the end of the text fits a word, they are kept as they stand. -/
namespace CodeWorkspace

theorem utf8ByteSize_ofList (text : List Char) : (String.ofList text).utf8ByteSize = byteLength text := by
  induction text with
  | nil => rfl
  | cons c text ih =>
    rw [String.ofList_cons, String.utf8ByteSize_append, String.utf8ByteSize_singleton, ih, byteLength_cons]

theorem utf8ByteSize_eq (text : String) : text.utf8ByteSize = byteLength text.toList := by
  rw [← utf8ByteSize_ofList, String.ofList_toList]

theorem byteLength_spaces (n : Nat) : byteLength (List.replicate n ' ') = n := by
  induction n with
  | zero => rfl
  | succ n ih =>
    rw [List.replicate_succ, byteLength_cons, ih, show ' '.utf8Size = 1 from rfl]
    omega

/-- A text of nothing but spaces. -/
def spaces (n : Nat) : String := String.ofList (List.replicate n ' ')

theorem utf8ByteSize_spaces (n : Nat) : (spaces n).utf8ByteSize = n := by
  rw [spaces, utf8ByteSize_ofList, byteLength_spaces]

namespace Token

/-- No token is empty, and none begins before `start` or before the end of the one in front of it. -/
def Ordered (start : Nat) : List Token → Prop
  | [] => True
  | t :: rest => start ≤ t.range.start ∧ t.range.start < t.range.stop ∧ Ordered t.range.stop rest

namespace Ordered

variable {start : Nat} {tokens : List Token}

theorem mono {before : Nat} (h : Ordered start tokens) (le : before ≤ start) : Ordered before tokens := by
  cases tokens with
  | nil => trivial
  | cons t rest => exact ⟨Nat.le_trans le h.1, h.2⟩

/-- Tokens may be left out. -/
theorem filter (h : Ordered start tokens) (p : Token → Bool) : Ordered start (tokens.filter p) := by
  induction tokens generalizing start with
  | nil => trivial
  | cons t rest ih =>
    obtain ⟨behind, nonempty, rest⟩ := h
    rw [List.filter_cons]
    split
    · exact ⟨behind, nonempty, ih rest⟩
    · exact ih (rest.mono (by omega))

theorem nonempty (h : Ordered start tokens) : ∀ t ∈ tokens, t.range.start < t.range.stop := by
  induction tokens generalizing start with
  | nil => simp
  | cons t rest ih => exact List.forall_mem_cons.mpr ⟨h.2.1, ih h.2.2⟩

end Ordered

theorem ordered_lexFrom (offset : Nat) (text : List Char) : Ordered offset (lexFrom offset text) := by
  fun_induction lexFrom offset text with
  | case1 => trivial
  | case2 offset c text stop ih =>
    refine ⟨Nat.le_refl _, ?_, ih⟩
    have := c.utf8Size_pos
    simp only [stop, byteLength_cons]
    omega

theorem text_ne_empty_of_lexFrom (offset : Nat) (text : List Char) :
    ∀ t ∈ lexFrom offset text, t.text ≠ "" := by
  fun_induction lexFrom offset text with
  | case1 => simp
  | case2 offset c text stop ih => exact List.forall_mem_cons.mpr ⟨by simp, ih⟩

theorem stop_le_of_lexFrom (offset : Nat) (text : List Char) :
    ∀ t ∈ lexFrom offset text, t.range.stop ≤ offset + byteLength text := by
  fun_induction lexFrom offset text with
  | case1 => simp
  | case2 offset c text stop ih =>
    have whole := congrArg byteLength (cut_split c text)
    rw [byteLength_append] at whole
    have stop_eq : stop = offset + (c.utf8Size + byteLength (cut c text).taken) := rfl
    rw [List.forall_mem_cons, byteLength_cons]
    refine ⟨by simp only; omega, fun t ht => ?_⟩
    have := ih t ht
    omega

theorem ordered_lex (text : String) : Ordered 0 (lex text) := ordered_lexFrom 0 text.toList

theorem stop_le_of_lex (text : String) : ∀ t ∈ lex text, t.range.stop ≤ byteLength text.toList := by
  intro t ht
  have := stop_le_of_lexFrom 0 text.toList t ht
  omega

/-! ## Tokens as they are kept -/

@[simp] theorem saturated_kind (t : Token) : t.saturated.kind = t.kind := rfl

@[simp] theorem saturated_text (t : Token) : t.saturated.text = t.text := rfl

theorem filter_map_saturated {p : Token → Bool} (blind : ∀ t, p (saturated t) = p t) (tokens : List Token) :
    (tokens.map (·.saturated)).filter p = (tokens.filter p).map (·.saturated) := by
  rw [List.filter_map]
  congr 2
  funext t
  exact blind t

theorem saturated_of_lt {t : Token} (start : t.range.start < UInt32.size) (stop : t.range.stop < UInt32.size) :
    t.saturated = t := by
  rw [saturated, saturateOffset_of_lt start, saturateOffset_of_lt stop]

theorem text_ne_empty_of_scan (text : String) : ∀ t ∈ scan text, t.text ≠ "" :=
  List.forall_mem_map.mpr (text_ne_empty_of_lexFrom 0 text.toList)

theorem start_le_stop_of_scan (text : String) : ∀ t ∈ scan text, t.range.start ≤ t.range.stop := by
  refine List.forall_mem_map.mpr fun t mem => ?_
  have nonempty := (ordered_lex text).nonempty t mem
  simp only [saturated, saturateOffset]
  omega

theorem stop_lt_of_scan (text : String) : ∀ t ∈ scan text, t.range.stop < UInt32.size :=
  List.forall_mem_map.mpr fun _ _ => Nat.lt_of_le_of_lt (Nat.min_le_right ..) (by decide)

theorem stop_le_of_scan (text : String) : ∀ t ∈ scan text, t.range.stop ≤ byteLength text.toList :=
  List.forall_mem_map.mpr fun t mem => Nat.le_trans (Nat.min_le_left ..) (stop_le_of_lex text t mem)

theorem scan_eq_lex {text : String} (small : text.utf8ByteSize < UInt32.size) : scan text = lex text := by
  rw [utf8ByteSize_eq] at small
  refine (List.map_congr_left fun t mem => ?_).trans (List.map_id _)
  have nonempty := (ordered_lex text).nonempty t mem
  have inside := stop_le_of_lex text t mem
  exact saturated_of_lt (by omega) (by omega)

theorem ordered_scan {text : String} (small : text.utf8ByteSize < UInt32.size) : Ordered 0 (scan text) := by
  rw [scan_eq_lex small]
  exact ordered_lex text

end Token
end CodeWorkspace
