import CodeWorkspace.Proofs.Outline.Concat
import CodeWorkspace.Proofs.Token.Lines
import Mathlib.Algebra.BigOperators.Group.List.Basic
import Mathlib.Algebra.GroupWithZero.Nat

/-! Printed reports, line by line. Every report on an outline takes one line but for those on block comments, which show
the comment with its lines: so what is printed has a line for each report just if no comment goes over its line. -/
namespace CodeWorkspace

/-! ## Lines of a text -/

namespace Text

/-- The pieces between newlines. A text without characters has no lines. -/
def lines (s : String) : List String := if s = "" then [] else (s.toList.splitOn '\n').map String.ofList

def newlines (s : String) : Nat := s.toList.count '\n'

theorem newlines_eq_zero {s : String} : newlines s = 0 ↔ '\n' ∉ s.toList := List.count_eq_zero

theorem splitOn_intercalate {pieces : List (List Char)} (some : pieces ≠ []) :
    (['\n'].intercalate pieces).splitOn '\n' = pieces.flatMap (·.splitOn '\n') := by
  induction pieces with
  | nil => exact absurd rfl some
  | cons piece rest ih =>
    cases rest with
    | nil => simp
    | cons next rest =>
      rw [List.intercalate_cons_cons, List.append_assoc, List.singleton_append, List.splitOn_append_cons_self,
        ih (List.cons_ne_nil next rest)]
      rfl

theorem length_splitOn (text : List Char) : (text.splitOn '\n').length = text.count '\n' + 1 := by
  induction text with
  | nil => rfl
  | cons c text ih =>
    rw [List.splitOn_cons_eq_if_modifyHead, List.count_cons]
    split
    · rw [List.length_cons, ih]
    · rw [List.length_modifyHead, ih, Nat.add_zero]

theorem lines_eq {s : String} (filled : s ≠ "") : lines s = (s.toList.splitOn '\n').map String.ofList := if_neg filled

theorem length_lines {s : String} (filled : s ≠ "") : (lines s).length = newlines s + 1 := by
  rw [lines_eq filled, List.length_map, length_splitOn, newlines]

theorem lines_of_newlines {s : String} (filled : s ≠ "") (none : newlines s = 0) : lines s = [s] := by
  rw [lines_eq filled, List.splitOn_eq_singleton (newlines_eq_zero.mp none), List.map_singleton, String.ofList_toList]

/-- The lines of what is put together are those of its parts. -/
theorem lines_intercalate {parts : List String} (filled : ∀ s ∈ parts, s ≠ "") :
    lines ("\n".intercalate parts) = parts.flatMap lines := by
  cases parts with
  | nil => rfl
  | cons first rest =>
    have some : (first :: rest).map String.toList ≠ [] := by simp
    have whole : "\n".intercalate (first :: rest) ≠ "" := by
      rw [← String.toList_eq_nil_iff.ne, String.toList_intercalate]
      cases rest with
      | nil => simpa using filled first List.mem_cons_self
      | cons next rest => simp
    rw [lines_eq whole, String.toList_intercalate, show "\n".toList = ['\n'] from rfl, splitOn_intercalate some,
      List.map_flatMap, List.flatMap_map]
    exact List.flatMap_congr fun s mem => (lines_eq (filled s mem)).symm

@[simp] theorem newlines_append (a b : String) : newlines (a ++ b) = newlines a + newlines b := by
  rw [newlines, String.toList_append, List.count_append]
  rfl

theorem newlines_toString (n : Nat) : newlines (toString n) = 0 := by
  rw [newlines_eq_zero, Nat.toString_eq_repr, Nat.toList_repr]
  intro mem
  cases Nat.isDigit_of_mem_toDigits (by decide) (by decide) mem

end Text

open Text

/-! ## One report -/

namespace Diagnostic

theorem newlines_position (p : Position) : newlines p.render = 0 := by
  have parts : p.render = toString (p.line + 1) ++ ":" ++ toString (p.column + 1) := rfl
  rw [parts, newlines_append, newlines_append, newlines_toString, newlines_toString]
  rfl

theorem newlines_place {d : Diagnostic} (path : ∀ p ∈ d.path, newlines p.text = 0) : newlines d.place = 0 := by
  unfold place
  split
  · rfl
  · next p here _ => rw [newlines_append, path p here]; rfl
  · next p span here _ =>
    rw [newlines_append, newlines_append, newlines_append, path p here, newlines_position]
    rfl

theorem newlines_label (s : Severity) : newlines s.label = 0 := by cases s <;> rfl

theorem render_ne_empty (d : Diagnostic) : d.render ≠ "" := by simp [render]

theorem newlines_render {d : Diagnostic} (path : ∀ p ∈ d.path, newlines p.text = 0)
    (code : ∀ code ∈ d.code, newlines code = 0) : newlines d.render = newlines d.message := by
  unfold render
  rw [newlines_append, newlines_append, newlines_append, newlines_append, newlines_place path, newlines_label]
  split
  · exact Nat.zero_add _
  · next here =>
    rw [newlines_append, newlines_append, code _ here]
    exact Nat.zero_add _

end Diagnostic

/-! ## Reports on an outline -/

namespace Outline

theorem newlines_trim {s : String} (none : '\n' ∉ s.toList) : newlines (trim s) = 0 := by
  rw [newlines_eq_zero, trim, String.toList_ofList, trimChars]
  intro mem
  rw [List.mem_reverse] at mem
  have inside := (List.dropWhile_sublist _).subset mem
  rw [List.mem_reverse] at inside
  exact none ((List.dropWhile_sublist _).subset inside)

/-- The newlines that a report on the token shows. -/
def shown (t : Token) : Nat := newlines (trim t.text)

section Parse

variable {path : Path} {text : String}

theorem shown_eq_zero {t : Token} (mem : t ∈ Token.scan text) (solid : t.kind ≠ .whitespace)
    (plain : t.isBlockComment = false) : shown t = 0 :=
  newlines_trim (Token.newline_not_mem_of_scan text t mem solid plain)

theorem newlines_message_brace {p : Problem} {brace : ByteRange}
    (h : p = .unbalanced brace ∨ p = .unclosed brace ∨ p = .tooDeep brace) : newlines p.message = 0 := by
  have before : newlines "blocks nested more than " = 0 := by decide
  have after : newlines " deep are not parsed" = 0 := by decide
  rcases h with rfl | rfl | rfl
  · have whole : (Problem.unbalanced brace).message = "unexpected `\x7d`" := rfl
    rw [whole]
    decide
  · have whole : (Problem.unclosed brace).message = "block is never closed" := rfl
    rw [whole]
    decide
  · have parts : (Problem.tooDeep brace).message
        = "blocks nested more than " ++ toString nestingLimit ++ " deep are not parsed" := rfl
    rw [parts, newlines_append, newlines_append, newlines_toString, before, after]

theorem newlines_message_unnamed (keyword : Token) :
    newlines (Problem.unnamed keyword).message = newlines keyword.text := by
  have parts : (Problem.unnamed keyword).message = "`" ++ keyword.text ++ "` declaration has no name" := rfl
  have opening : newlines "`" = 0 := by decide
  have closing : newlines "` declaration has no name" = 0 := by decide
  simp only [parts, newlines_append, opening, closing, Nat.zero_add, Nat.add_zero]

theorem newlines_message_unknown (t : Token) : newlines (Problem.unknown t).message = shown t := by
  have parts : (Problem.unknown t).message = "unrecognized input `" ++ trim t.text ++ "`" := rfl
  have opening : newlines "unrecognized input `" = 0 := by decide
  have closing : newlines "`" = 0 := by decide
  simp only [parts, newlines_append, opening, closing, Nat.zero_add, Nat.add_zero, shown]

theorem newlines_code (p : Problem) : newlines p.code = 0 := by
  cases p <;> simp only [Problem.code] <;> decide

/-- What is told of tokens without newlines has none. -/
theorem newlines_message_read {tokens : List Token} (single : ∀ t ∈ tokens, newlines t.text = 0) :
    ∀ p ∈ (read tokens).2, newlines p.message = 0 := by
  intro p mem
  rw [read, List.mem_reverse, Reader.problems_ended] at mem
  rcases List.mem_append.mp mem with unclosed | told
  · obtain ⟨brace, -, rfl⟩ := List.mem_map.mp (List.mem_reverse.mp unclosed)
    exact newlines_message_brace (.inr (.inl rfl))
  · obtain ⟨t, t_mem, of⟩ := (Reader.mem_problems_run told).resolve_left List.not_mem_nil
    cases p with
    | unbalanced brace => exact newlines_message_brace (.inl rfl)
    | unclosed brace => exact newlines_message_brace (.inr (.inl rfl))
    | tooDeep brace => exact newlines_message_brace (.inr (.inr rfl))
    | unnamed keyword =>
      obtain rfl : keyword = t := of
      rw [newlines_message_unnamed, single keyword t_mem]
    | unknown token =>
      obtain rfl : token = t := of
      rw [newlines_message_unknown, shown, newlines_trim (newlines_eq_zero.mp (single token t_mem))]

theorem single_of_significant {t : Token} (mem : t ∈ (Token.scan text).filter isSignificant) : newlines t.text = 0 := by
  obtain ⟨scanned, significant⟩ := List.mem_filter.mp mem
  simp only [isSignificant, Bool.and_eq_true, Bool.not_eq_true', decide_eq_true_eq] at significant
  have solid : t.kind ≠ .whitespace := fun blank => by simp [blank, TokenKind.isTrivia] at significant
  have plain : t.isBlockComment = false := by simp [Token.isBlockComment, significant.2]
  exact newlines_eq_zero.mpr (Token.newline_not_mem_of_scan text t scanned solid plain)

/-- A report has the newlines that its message shows. -/
theorem newlines_report (lines : LineTable) (p : Problem) (single : '\n' ∉ path.text.toList) :
    newlines (p.diagnostic path lines).render = newlines p.message := by
  refine Diagnostic.newlines_render (fun q here => ?_) fun code named => ?_
  · obtain rfl : path = q := Option.some.inj here
    exact newlines_eq_zero.mpr single
  · obtain rfl : p.code = code := Option.some.inj named
    exact newlines_code p

theorem newlines_tooLarge (size : Nat) (single : '\n' ∉ path.text.toList) :
    newlines (tooLarge path size).render = 0 := by
  have parts : (tooLarge path size).message =
      "document is " ++ toString size ++ " bytes; at most " ++ toString (UInt32.size - 1) ++ " are supported" := rfl
  have opening : newlines "document is " = 0 := by decide
  have middle : newlines " bytes; at most " = 0 := by decide
  have closing : newlines " are supported" = 0 := by decide
  have code : newlines "Q0006" = 0 := by decide
  rw [Diagnostic.newlines_render (fun q here => ?_) fun c named => ?_]
  · simp only [parts, newlines_append, newlines_toString, opening, middle, closing, Nat.add_zero]
  · obtain rfl : path = q := Option.some.inj here
    exact newlines_eq_zero.mpr single
  · obtain rfl : "Q0006" = c := Option.some.inj named
    exact code

variable (path text)

theorem newlines_reports (small : text.utf8ByteSize < UInt32.size) (single : '\n' ∉ path.text.toList) :
    (parse path text).diagnostics.map (newlines ·.render)
      = (unknowns (Token.scan text) ++ (read ((Token.scan text).filter isSignificant)).2).map (newlines ·.message) := by
  rw [parse_of_lt path small, List.map_map]
  refine List.map_congr_left fun p _ => ?_
  rw [Function.comp_apply, newlines_report _ p single]

/-- Of all that is unknown, block comments alone show newlines. -/
theorem sum_shown_unknown {tokens : List Token} (scanned : tokens ⊆ Token.scan text) :
    ((tokens.filter (·.kind = .unknown)).map shown).sum = ((tokens.filter (·.isBlockComment)).map shown).sum := by
  induction tokens with
  | nil => rfl
  | cons t tokens ih =>
    have ih := ih (List.subset_of_cons_subset scanned)
    by_cases unknown : t.kind = .unknown
    · rw [List.filter_cons_of_pos (by simpa using unknown), List.map_cons, List.sum_cons, ih]
      cases comment : t.isBlockComment with
      | true => rw [List.filter_cons_of_pos (by exact comment), List.map_cons, List.sum_cons]
      | false =>
        -- Quotes without an end stop at the end of their line.
        have solid : t.kind ≠ .whitespace := by rw [unknown]; decide
        rw [List.filter_cons_of_neg (by simpa using comment),
          shown_eq_zero (scanned List.mem_cons_self) solid comment, Nat.zero_add]
    · have plain : ¬ t.isBlockComment = true := by simp [Token.isBlockComment, unknown]
      rw [List.filter_cons_of_neg (by simpa using unknown), List.filter_cons_of_neg plain, ih]

/-- The block comments that are met in a document. One that is too large is not gone through. -/
def commentsMet : List Token :=
  if text.utf8ByteSize < UInt32.size then (Token.scan text).filter (·.isBlockComment) else []

theorem sum_newlines_reports (single : '\n' ∉ path.text.toList) :
    ((parse path text).diagnostics.map (newlines ·.render)).sum = ((commentsMet text).map shown).sum := by
  rcases Nat.lt_or_ge text.utf8ByteSize UInt32.size with small | large
  · have known : ((read ((Token.scan text).filter isSignificant)).2.map (newlines ·.message)).sum = 0 := by
      rw [List.sum_eq_zero_iff_forall_eq_nat, List.forall_mem_map]
      exact newlines_message_read fun _ => single_of_significant
    have unknown : (unknowns (Token.scan text)).map (newlines ·.message)
        = ((Token.scan text).filter (·.kind = .unknown)).map shown := by
      rw [unknowns, List.map_map]
      refine List.map_congr_left fun t _ => ?_
      rw [Function.comp_apply, newlines_message_unknown]
    rw [newlines_reports path text small single, List.map_append, List.sum_append, known, unknown, Nat.add_zero,
      sum_shown_unknown text (List.Subset.refl _), commentsMet, if_pos small]
  · rw [parse_of_le path large, commentsMet, if_neg (Nat.not_lt_of_le large), List.map_singleton, List.sum_singleton,
      newlines_tooLarge _ single]
    rfl

/-- What is printed of a document has the lines of its reports, one each and one more for each newline that a report
shows of a block comment. So every report has a line of its own just if no block comment goes over its line. -/
theorem lines_of_reports (single : '\n' ∉ path.text.toList) :
    let reports := (parse path text).diagnostics
    let comments := commentsMet text
    lines (Diagnostic.renderAll reports) = reports.flatMap (lines ·.render) ∧
    (lines (Diagnostic.renderAll reports)).length = reports.length + (comments.map shown).sum ∧
    (lines (Diagnostic.renderAll reports) = reports.map (·.render) ↔ ∀ t ∈ comments, '\n' ∉ (trim t.text).toList) := by
  intro reports comments
  have parted : lines (Diagnostic.renderAll reports) = reports.flatMap (lines ·.render) := by
    rw [Diagnostic.renderAll, lines_intercalate (List.forall_mem_map.mpr fun d _ => d.render_ne_empty),
      List.flatMap_map]
  have total : (lines (Diagnostic.renderAll reports)).length = reports.length + (comments.map shown).sum := by
    have each : reports.map (fun d => (lines d.render).length) = reports.map (fun d => newlines d.render + 1) :=
      List.map_congr_left fun d _ => length_lines d.render_ne_empty
    rw [parted, List.length_flatMap, each, List.sum_map_add, sum_newlines_reports path text single, Nat.add_comm,
      List.map_const', List.sum_replicate_nat, Nat.mul_one]
  refine ⟨parted, total, fun alone => ?_, fun plain => ?_⟩
  · rw [alone, List.length_map] at total
    intro t mem
    have none : shown t = 0 :=
      List.sum_eq_zero_iff_forall_eq_nat.mp (Nat.left_eq_add.mp total) _ (List.mem_map_of_mem mem)
    exact newlines_eq_zero.mp none
  · have zero : (reports.map (newlines ·.render)).sum = 0 := by
      rw [sum_newlines_reports path text single, List.sum_eq_zero_iff_forall_eq_nat, List.forall_mem_map]
      exact fun t mem => newlines_eq_zero.mpr (plain t mem)
    have each : ∀ d ∈ reports, lines d.render = [d.render] := fun d mem =>
      lines_of_newlines d.render_ne_empty (List.sum_eq_zero_iff_forall_eq_nat.mp zero _ (List.mem_map_of_mem mem))
    rw [parted, List.flatMap_congr each, List.map_eq_flatMap]

/-- A comment over two lines, and a brace too many behind it. -/
theorem lines_of_reports_commented :
    let text := "/* two\nlines\n */ \x7d"
    let reports := (parse ⟨"a.cs"⟩ text).diagnostics
    let comments := commentsMet text
    '\n' ∉ "a.cs".toList ∧
    lines (Diagnostic.renderAll reports) = reports.flatMap (lines ·.render) ∧
    (lines (Diagnostic.renderAll reports)).length = reports.length + (comments.map shown).sum ∧
    (lines (Diagnostic.renderAll reports) = reports.map (·.render) ↔ ∀ t ∈ comments, '\n' ∉ (trim t.text).toList) ∧
    lines (Diagnostic.renderAll reports) =
      ["a.cs:1:1: warning[Q0004]: unrecognized input `/* two", "lines", " *`",
        "a.cs:3:5: error[Q0001]: unexpected `\x7d`"] := by
  intro text reports comments
  have single : '\n' ∉ "a.cs".toList := by decide
  have printed : lines (Diagnostic.renderAll reports) =
      ["a.cs:1:1: warning[Q0004]: unrecognized input `/* two", "lines", " *`",
        "a.cs:3:5: error[Q0001]: unexpected `\x7d`"] := by
    decide +kernel
  obtain ⟨parted, total, alone⟩ := lines_of_reports ⟨"a.cs"⟩ text single
  exact ⟨single, parted, total, alone, printed⟩

/-- The report on a comment has as many lines as the comment. -/
theorem report_on_two_lines :
    ¬ ∀ (path : Path) (text : String), '\n' ∉ path.text.toList →
      lines (Diagnostic.renderAll (parse path text).diagnostics) = (parse path text).diagnostics.map (·.render) := by
  intro one_each
  have same := one_each ⟨"a.cs"⟩ "/* two\nlines" (by decide)
  have counts : (lines (Diagnostic.renderAll (parse ⟨"a.cs"⟩ "/* two\nlines").diagnostics)).length = 2 ∧
      (parse ⟨"a.cs"⟩ "/* two\nlines").diagnostics.length = 1 := by
    decide +kernel
  rw [same, List.length_map, counts.2] at counts
  exact absurd counts.1 (by decide)

end Parse
end Outline
end CodeWorkspace
