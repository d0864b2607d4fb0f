import CodeWorkspace.Outline.Parse
import CodeWorkspace.Proofs.Token.Concat

/-! Documents by their size. One of less than four gigabytes has the outline of its tokens. Of a larger one it is told
that it is too large and nothing else, whatever its tokens are. -/
namespace CodeWorkspace.Outline

variable {text : String}

theorem parse_of_lt (path : Path) (small : text.utf8ByteSize < UInt32.size) :
    parse path text =
      { tree := ⟨(read ((Token.scan text).filter isSignificant)).1, byteLength text.toList⟩
        diagnostics := (unknowns (Token.scan text) ++ (read ((Token.scan text).filter isSignificant)).2).map
          (·.diagnostic path (LineTable.ofText text)) } := if_pos small

theorem items_parse (path : Path) (small : text.utf8ByteSize < UInt32.size) :
    (parse path text).tree.items = (read ((Token.scan text).filter isSignificant)).1 := by
  rw [parse_of_lt path small]

theorem parse_of_le (path : Path) (large : UInt32.size ≤ text.utf8ByteSize) :
    parse path text = ⟨⟨[], 0⟩, [tooLarge path text.utf8ByteSize]⟩ := if_neg (Nat.not_lt_of_le large)

theorem ofText_eq_unbounded (small : text.utf8ByteSize < UInt32.size) :
    LineTable.ofText text = .unbounded text.toList := by
  rw [utf8ByteSize_eq] at small
  exact LineTable.ofChars_eq_unbounded small

theorem filter_isSignificant_solid (tokens : List Token) :
    (Token.solid tokens).filter isSignificant = tokens.filter isSignificant := by
  rw [Token.solid, List.filter_filter]
  congr 1
  funext t
  simp only [isSignificant]
  cases t.kind.isTrivia <;> simp

/-! ## A large document -/

/-- A line, and behind it more spaces than there are offsets. -/
def overlong (line : String) : String := line ++ "\n" ++ spaces UInt32.size

theorem le_overlong (line : String) : UInt32.size ≤ (overlong line).utf8ByteSize := by
  rw [overlong, String.utf8ByteSize_append, utf8ByteSize_spaces]
  exact Nat.le_add_left ..

theorem parse_overlong (path : Path) (line : String) :
    parse path (overlong line) = ⟨⟨[], 0⟩, [tooLarge path (overlong line).utf8ByteSize]⟩ :=
  parse_of_le path (le_overlong line)

/-- The spaces have no part in what is declared. -/
theorem significant_overlong {line : String} (known : ∀ t ∈ Token.lex (line ++ "\n"), t.kind ≠ .unknown) :
    (Token.scan (overlong line)).filter isSignificant = (Token.scan (line ++ "\n")).filter isSignificant := by
  have blank : Token.solid (Token.lex (spaces UInt32.size)) = [] := by
    have space : ∀ c ∈ List.replicate UInt32.size ' ', Token.isSpace c = true := by
      intro c mem
      obtain ⟨-, rfl⟩ := List.mem_replicate.mp mem
      rfl
    have alone := Token.solid_lexFrom_spaces space 0 []
    rw [List.append_nil] at alone
    rw [Token.lex, spaces, String.toList_ofList, alone, Token.lexFrom]
    rfl
  have newline : (line ++ "\n").toList.getLast? = some '\n' := by
    rw [String.toList_append]
    exact List.getLast?_concat
  have visible := Token.solid_lex_append newline known (b := spaces UInt32.size)
  rw [blank, List.map_nil, List.append_nil] at visible
  rw [Token.scan, Token.scan, Token.filter_map_saturated fun _ => rfl, Token.filter_map_saturated fun _ => rfl,
    overlong, ← filter_isSignificant_solid, visible, filter_isSignificant_solid]

end CodeWorkspace.Outline
