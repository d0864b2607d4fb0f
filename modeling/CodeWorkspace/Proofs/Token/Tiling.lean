import CodeWorkspace.Proofs.Token.Order
import Mathlib.Data.List.Chain

/-! Tokens cover their text. Each stands right behind the texts of those in front of it, so that they leave no gap, cut
no character, and put together are the text again, whatever it is. Their offsets tell so as long as they fit words. -/
namespace CodeWorkspace.Token

/-- What a list of tokens must be to cover a text without gaps, where an offset is kept in this form. -/
structure Covers (kept : Nat → Nat) (text : String) (tokens : List Token) : Prop where
  filled : ∀ t ∈ tokens, t.text ≠ ""
  first : ∀ t ∈ tokens.head?, t.range.start = 0
  joined : tokens.IsChain fun t u => t.range.stop = u.range.start
  last : ∀ t ∈ tokens.getLast?, t.range.stop = kept text.utf8ByteSize
  /-- A token says what stands in its range. -/
  slices : ∀ t ∈ tokens, ∃ before behind, text = before ++ t.text ++ behind ∧
    t.range = ⟨kept before.utf8ByteSize, kept (before ++ t.text).utf8ByteSize⟩
  whole : String.join (tokens.map (·.text)) = text

/-- What a list of tokens must be to cover a text with ranges that are those of its bytes. -/
structure Tiles (text : String) (tokens : List Token) : Prop extends Covers id text tokens where
  nonempty : ∀ t ∈ tokens, t.range.start < t.range.stop
  /-- No token begins or ends within a character. -/
  boundaries : ∀ t ∈ tokens, String.Pos.Raw.IsValid text ⟨t.range.start⟩ ∧ String.Pos.Raw.IsValid text ⟨t.range.stop⟩

/-- The text of some tokens put together. -/
def joinedText (tokens : List Token) : String := String.join (tokens.map (·.text))

theorem joinedText_nil : joinedText [] = "" := rfl

theorem toList_joinedText (tokens : List Token) : (joinedText tokens).toList = tokens.flatMap (·.text.toList) := by
  rw [joinedText, String.toList_join, List.flatMap_map]

theorem joinedText_append (a b : List Token) : joinedText (a ++ b) = joinedText a ++ joinedText b := by
  apply String.toList_injective
  rw [String.toList_append, toList_joinedText, toList_joinedText, toList_joinedText, List.flatMap_append]

theorem joinedText_cons (t : Token) (tokens : List Token) : joinedText (t :: tokens) = t.text ++ joinedText tokens := by
  apply String.toList_injective
  rw [String.toList_append, toList_joinedText, toList_joinedText, List.flatMap_cons]

/-! ## What tokens tell of its text -/

section Scan

variable {offset : Nat} {text : List Char} {front behind : List Token} {t : Token}

/-- No character is lost, and none is added. -/
theorem joinedText_lexFrom (offset : Nat) (text : List Char) :
    joinedText (lexFrom offset text) = String.ofList text := by
  fun_induction lexFrom offset text with
  | case1 => rfl
  | case2 offset c text stop ih =>
    rw [joinedText_cons, ih, ← String.ofList_append, List.cons_append, cut_split]

/-- The range of a token is told by the texts of the tokens in front of it and by its own. -/
theorem range_of_split (split : lexFrom offset text = front ++ t :: behind) :
    t.range = ⟨offset + (joinedText front).utf8ByteSize, offset + (joinedText front ++ t.text).utf8ByteSize⟩ := by
  induction front generalizing offset text with
  | nil =>
    cases text with
    | nil => simp [lexFrom] at split
    | cons c text =>
      rw [lexFrom] at split
      obtain ⟨rfl, -⟩ := List.cons.inj split
      simp only [joinedText_nil, String.empty_append, utf8ByteSize_ofList]
      rfl
  | cons first front ih =>
    cases text with
    | nil => simp [lexFrom] at split
    | cons c text =>
      rw [lexFrom] at split
      obtain ⟨rfl, later⟩ := List.cons.inj split
      rw [ih later, joinedText_cons]
      simp only [String.append_assoc, String.utf8ByteSize_append, utf8ByteSize_ofList, Nat.add_assoc]

theorem start_of_head? (head : t ∈ (lexFrom offset text).head?) : t.range.start = offset := by
  obtain ⟨behind, split⟩ := List.head?_eq_some_iff.mp head
  have first : lexFrom offset text = [] ++ t :: behind := split
  rw [range_of_split first]
  rfl

theorem isChain_lexFrom (offset : Nat) (text : List Char) :
    (lexFrom offset text).IsChain fun t u => t.range.stop = u.range.start := by
  fun_induction lexFrom offset text with
  | case1 => exact .nil
  | case2 offset c text stop ih => exact List.isChain_cons.mpr ⟨fun u head => (start_of_head? head).symm, ih⟩

end Scan

section Text

variable {text : String} {t : Token}

theorem joinedText_lex (text : String) : joinedText (lex text) = text := by
  rw [lex, joinedText_lexFrom, String.ofList_toList]

theorem slice_of_mem_lex (mem : t ∈ lex text) :
    ∃ before behind, text = before ++ t.text ++ behind ∧
      t.range = ⟨before.utf8ByteSize, (before ++ t.text).utf8ByteSize⟩ := by
  obtain ⟨front, behind, split⟩ := List.append_of_mem mem
  refine ⟨joinedText front, joinedText behind, ?_, ?_⟩
  · rw [String.append_assoc, ← joinedText_cons, ← joinedText_append, ← split, joinedText_lex]
  · rw [range_of_split split, Nat.zero_add, Nat.zero_add]

theorem stop_of_getLast? (last : t ∈ (lex text).getLast?) : t.range.stop = text.utf8ByteSize := by
  obtain ⟨front, split⟩ := List.getLast?_eq_some_iff.mp last
  have whole : joinedText front ++ t.text = text := by
    rw [← joinedText_lex text, split, joinedText_append]
    rfl
  rw [range_of_split split, whole]
  exact Nat.zero_add _

theorem isValid_of_append {before behind : String} (split : text = before ++ behind) :
    String.Pos.Raw.IsValid text ⟨before.utf8ByteSize⟩ :=
  String.Pos.Raw.isValid_iff_exists_append.mpr ⟨before, behind, split, rfl⟩

end Text

theorem tiles_lex (text : String) : Tiles text (lex text) where
  filled := text_ne_empty_of_lexFrom 0 text.toList
  first _ := start_of_head?
  joined := isChain_lexFrom 0 text.toList
  last _ := stop_of_getLast?
  slices _ := slice_of_mem_lex
  whole := joinedText_lex text
  nonempty := (ordered_lex text).nonempty
  boundaries t mem := by
    obtain ⟨before, behind, split, range⟩ := slice_of_mem_lex mem
    rw [range]
    exact ⟨isValid_of_append (split.trans (String.append_assoc ..)), isValid_of_append split⟩

namespace Covers

variable {text : String} {tokens : List Token}

/-- Where offsets saturate, neighbours still meet. -/
theorem saturated (covers : Covers id text tokens) : Covers saturateOffset text (tokens.map (·.saturated)) where
  filled := List.forall_mem_map.mpr covers.filled
  first := by
    rw [List.head?_map]
    intro _ head
    obtain ⟨t, first, rfl⟩ := Option.map_eq_some_iff.mp head
    exact (congrArg saturateOffset (covers.first t first)).trans rfl
  joined := (List.isChain_map _).mpr (covers.joined.imp fun t u meet => congrArg saturateOffset meet)
  last := by
    rw [List.getLast?_map]
    intro _ tail
    obtain ⟨t, last, rfl⟩ := Option.map_eq_some_iff.mp tail
    exact congrArg saturateOffset (covers.last t last)
  slices := List.forall_mem_map.mpr fun t mem => by
    obtain ⟨before, behind, split, range⟩ := covers.slices t mem
    exact ⟨before, behind, split, by rw [Token.saturated, range]; rfl⟩
  whole := by
    rw [List.map_map]
    exact covers.whole

end Covers

theorem covers_scan (text : String) : Covers saturateOffset text (scan text) := (tiles_lex text).toCovers.saturated

/-- Behind the last word there is no offset for the end of the text. -/
theorem not_tiles_scan {text : String} (large : UInt32.size ≤ text.utf8ByteSize) : ¬Tiles text (scan text) := by
  intro tiles
  cases last : (scan text).getLast? with
  | none =>
    have whole := tiles.whole
    rw [List.getLast?_eq_none_iff.mp last] at whole
    rw [← whole] at large
    exact absurd large (by decide)
  | some t =>
    have reached := tiles.last t last
    have kept := stop_lt_of_scan text t (List.mem_of_getLast? last)
    rw [id] at reached
    omega

/-- The tokens of any text cover it, with every offset that does not fit a word of 32 bits as the last that does; and
just if the end of the text fits one, their ranges are those of its bytes. -/
theorem tiles_scan (text : String) :
    Covers saturateOffset text (scan text) ∧ (Tiles text (scan text) ↔ text.utf8ByteSize < UInt32.size) := by
  refine ⟨covers_scan text, fun tiles => Nat.lt_of_not_le fun large => not_tiles_scan large tiles, fun small => ?_⟩
  rw [scan_eq_lex small]
  exact tiles_lex text

theorem not_tiles_spaces : ¬Tiles (spaces UInt32.size) (scan (spaces UInt32.size)) :=
  not_tiles_scan (Nat.le_of_eq (utf8ByteSize_spaces UInt32.size).symm)

/-- A literal that is not closed, and letters of two bytes. -/
example : (scan "é \"ü").map (fun t => (t.text, t.range)) = [("é", ⟨0, 2⟩), (" ", ⟨2, 3⟩), ("\"ü", ⟨3, 6⟩)] := by
  decide +kernel

end CodeWorkspace.Token
