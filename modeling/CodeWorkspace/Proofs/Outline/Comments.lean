import CodeWorkspace.Proofs.Outline.Sizes

/-! Block comments in an outline. One is scanned as unknown input up to its closing slash, and the slash is a token by
itself: so spaces may stand for all of the comment but the slash, at the price of one report. -/
namespace CodeWorkspace.Outline

/-! ## Spaces for text -/

/-- Newlines stay, and every other character becomes as many spaces as it has bytes. -/
def blank (text : List Char) : List Char :=
  text.flatMap fun c => if c = '\n' then [c] else List.replicate c.utf8Size ' '

theorem byteLength_blank (text : List Char) : byteLength (blank text) = byteLength text := by
  induction text with
  | nil => rfl
  | cons c text ih =>
    rw [blank, List.flatMap_cons, ← blank, byteLength_append, ih, byteLength_cons]
    split
    · rfl
    · rw [byteLength_spaces]

theorem isSpace_of_mem_blank {text : List Char} : ∀ c ∈ blank text, Token.isSpace c = true := by
  intro c hc
  obtain ⟨d, _, hc⟩ := List.mem_flatMap.mp hc
  split at hc
  · next newline =>
    rw [List.mem_singleton.mp hc, newline]
    rfl
  · rw [List.eq_of_mem_replicate hc]
    rfl

theorem breaksFrom_spaces (offset n : Nat) : LineTable.breaksFrom offset (List.replicate n ' ') = [] := by
  induction n generalizing offset with
  | zero => rfl
  | succ n ih => rw [List.replicate_succ, LineTable.breaksFrom, if_neg (by decide), ih]

theorem breaksFrom_blank (offset : Nat) (text : List Char) :
    LineTable.breaksFrom offset (blank text) = LineTable.breaksFrom offset text := by
  induction text generalizing offset with
  | nil => rfl
  | cons c text ih =>
    rw [blank, List.flatMap_cons, ← blank, LineTable.breaksFrom_append, ih, LineTable.breaksFrom]
    split
    · next newline =>
      rw [LineTable.breaksFrom, if_pos newline]
      rfl
    · rw [breaksFrom_spaces, byteLength_spaces, List.nil_append]

/-- Lines begin where they did. -/
theorem ofChars_blank (before text after : List Char) :
    LineTable.ofChars (before ++ (blank text ++ after)) = LineTable.ofChars (before ++ (text ++ after)) := by
  simp only [LineTable.ofChars, LineTable.breaksFrom_append, breaksFrom_blank, byteLength_append, byteLength_blank]

/-! ## What trivia is good for -/

theorem unknowns_solid (tokens : List Token) : unknowns (Token.solid tokens) = unknowns tokens := by
  rw [unknowns, Token.solid, List.filter_filter, unknowns]
  congr 2
  funext t
  by_cases h : t.kind = .unknown
  · simp [h, TokenKind.isTrivia]
  · simp [h]

/-- What the tokens of a text of this many bytes with these lines make. -/
def parseTokens (path : Path) (lines : LineTable) (tokens : List Token) : Parsed where
  tree := ⟨(read (tokens.filter isSignificant)).1, lines.length⟩
  diagnostics := (unknowns tokens ++ (read (tokens.filter isSignificant)).2).map (·.diagnostic path lines)

/-- Trivia has no part in an outline. -/
theorem parse_eq_solid (path : Path) {text : String} (small : text.utf8ByteSize < UInt32.size) :
    parse path text = parseTokens path (LineTable.ofText text) (Token.solid (Token.lex text)) := by
  rw [parse_of_lt path small, Token.scan_eq_lex small, parseTokens, filter_isSignificant_solid, unknowns_solid,
    ofText_eq_unbounded small]
  rfl

theorem unknowns_append (a b : List Token) : unknowns (a ++ b) = unknowns a ++ unknowns b := by
  rw [unknowns, List.filter_append, List.map_append]
  rfl

theorem unknowns_cons {t : Token} (unknown : t.kind = .unknown) (tokens : List Token) :
    unknowns (t :: tokens) = .unknown t :: unknowns tokens := by
  rw [unknowns, List.filter_cons_of_pos (by simpa using unknown), List.map_cons]
  rfl

/-- One more unknown token is one more report. -/
theorem parseTokens_unknown {t : Token} (unknown : t.kind = .unknown) (path : Path) (lines : LineTable)
    (front behind : List Token) :
    (parseTokens path lines (front ++ t :: behind)).tree = (parseTokens path lines (front ++ behind)).tree ∧
      ∃ reports more, (parseTokens path lines (front ++ behind)).diagnostics = reports ++ more ∧
        (parseTokens path lines (front ++ t :: behind)).diagnostics =
          reports ++ (Problem.unknown t).diagnostic path lines :: more := by
  have significant : (front ++ t :: behind).filter isSignificant = (front ++ behind).filter isSignificant := by
    rw [List.filter_append, List.filter_cons_of_neg (by simp [isSignificant, unknown]), ← List.filter_append]
  refine ⟨by rw [parseTokens, significant, parseTokens], (unknowns front).map (·.diagnostic path lines),
    (unknowns behind ++ (read ((front ++ behind).filter isSignificant)).2).map (·.diagnostic path lines), ?_, ?_⟩
  · rw [parseTokens, unknowns_append, List.append_assoc, List.map_append]
  · rw [parseTokens, significant, unknowns_append, unknowns_cons unknown, List.append_assoc, List.map_append,
      List.cons_append, List.map_cons]

/-! ## A text with a comment -/

/-- A text around a complete block comment. -/
structure Commented where
  before : List Char
  body : List Char
  after : List Char
  complete : ¬ ['*', '/'] <:+: body

namespace Commented

variable (d : Commented)

/-- The comment up to its closing slash. -/
def opened : List Char := '/' :: '*' :: (d.body ++ ['*'])

def text : String := String.ofList (d.before ++ (d.opened ++ '/' :: d.after))

/-- Spaces for the comment. -/
def blanked : String := String.ofList (d.before ++ (blank (d.opened ++ ['/']) ++ d.after))

/-- Spaces for the comment up to its closing slash. -/
def slashed : String := String.ofList (d.before ++ (blank d.opened ++ '/' :: d.after))

/-- The comment begins where a token does. -/
def AtBoundary : Prop := ∃ t ∈ Token.scan d.text, t.range.start = byteLength d.before

/-- The slash of the comment's beginning is not what closes a comment in front of it. -/
def Apart : Prop := ∀ t ∈ Token.scan d.text, t.kind = .unknown → t.range.stop ≠ byteLength d.before

/-- The token that the comment is scanned as. -/
def token : Token :=
  ⟨.unknown, String.ofList d.opened, ⟨byteLength d.before, byteLength d.before + byteLength d.opened⟩⟩

theorem lexFrom_opened (offset : Nat) :
    Token.lexFrom offset (d.opened ++ '/' :: d.after) =
      ⟨.unknown, String.ofList d.opened, ⟨offset, offset + byteLength d.opened⟩⟩ ::
        Token.lexFrom (offset + byteLength d.opened) ('/' :: d.after) := by
  have inside : Token.Unclosed false (d.body ++ ['*']) := Token.unclosed_star nofun d.complete
  have ends : Token.BlockEnds (Token.starredAfter false (d.body ++ ['*'])) ('/' :: d.after) := by
    rintro c ⟨⟩
    exact ⟨rfl, by simp [Token.starredAfter]⟩
  exact Token.lexFrom_cut (Token.cut_of_form (.block rfl inside) ends) offset

theorem lines_slashed : LineTable.ofText d.slashed = LineTable.ofText d.text := by
  simp only [LineTable.ofText, slashed, text, String.toList_ofList, ofChars_blank]

theorem utf8ByteSize_slashed : d.slashed.utf8ByteSize = d.text.utf8ByteSize := by
  simp only [slashed, text, utf8ByteSize_ofList, byteLength_append, byteLength_blank]

variable {d}

theorem whole_before (boundary : ∃ t ∈ Token.lex d.text, t.range.start = byteLength d.before) :
    Token.Whole (d.opened ++ '/' :: d.after) d.before := by
  rw [← Nat.zero_add (byteLength d.before), Token.lex, text, String.toList_ofList] at boundary
  exact Token.whole_of_start boundary

theorem lex_text (whole : Token.Whole (d.opened ++ '/' :: d.after) d.before) :
    Token.lex d.text = Token.lexFrom 0 d.before ++
      d.token :: Token.lexFrom (byteLength d.before + byteLength d.opened) ('/' :: d.after) := by
  rw [Token.lex, text, String.toList_ofList, whole.lexFrom_append, lexFrom_opened, Nat.zero_add]
  rfl

theorem solid_lex_slashed (whole : Token.Whole (d.opened ++ '/' :: d.after) d.before)
    (apart : ∀ t ∈ Token.lex d.text, t.kind = .unknown → t.range.stop ≠ byteLength d.before) :
    Token.solid (Token.lex d.slashed) = Token.solid (Token.lexFrom 0 d.before) ++
      Token.solid (Token.lexFrom (byteLength d.before + byteLength d.opened) ('/' :: d.after)) := by
  have known : ∀ t ∈ Token.lexFrom 0 d.before, t.kind = .unknown → t.range.stop ≠ 0 + byteLength d.before := by
    intro t ht unknown
    rw [Nat.zero_add]
    exact apart t (by rw [lex_text whole]; exact List.mem_append_left _ ht) unknown
  rw [Token.lex, slashed, String.toList_ofList, whole.solid_lexFrom ⟨' ', rfl, rfl⟩ 0 known,
    Token.solid_lexFrom_spaces isSpace_of_mem_blank, byteLength_blank, Nat.zero_add]

variable (d) in
/-- Where a comment begins with a token, and not with the slash that closes another one, spaces in place of it up to its
closing slash leave the tree as it is, and take away one report: that the comment was not recognized. -/
theorem parse_slashed (small : d.text.utf8ByteSize < UInt32.size) (boundary : d.AtBoundary) (apart : d.Apart)
    (path : Path) :
    (parse path d.slashed).tree = (parse path d.text).tree ∧
      ∃ reports more, (parse path d.slashed).diagnostics = reports ++ more ∧
        (parse path d.text).diagnostics =
          reports ++ (Problem.unknown d.token).diagnostic path (LineTable.ofText d.text) :: more := by
  rw [AtBoundary, Token.scan_eq_lex small] at boundary
  rw [Apart, Token.scan_eq_lex small] at apart
  have whole := whole_before boundary
  have tokens : Token.solid (Token.lex d.text) = Token.solid (Token.lexFrom 0 d.before) ++
      d.token :: Token.solid (Token.lexFrom (byteLength d.before + byteLength d.opened) ('/' :: d.after)) := by
    rw [lex_text whole, Token.solid_append, Token.solid_other (t := d.token) Bool.false_ne_true]
  rw [parse_eq_solid path (by rwa [utf8ByteSize_slashed]), parse_eq_solid path small, lines_slashed,
    solid_lex_slashed whole apart, tokens]
  obtain ⟨tree, diagnostics⟩ := parseTokens_unknown (t := d.token) rfl path (LineTable.ofText d.text)
    (Token.solid (Token.lexFrom 0 d.before))
    (Token.solid (Token.lexFrom (byteLength d.before + byteLength d.opened) ('/' :: d.after)))
  exact ⟨tree.symm, diagnostics⟩

/-- A comment between a keyword and the name. -/
def inDeclaration : Commented := ⟨"class ".toList, " x ".toList, " A \x7b \x7d".toList, by decide⟩

theorem inDeclaration_atBoundary : inDeclaration.AtBoundary := by
  rw [AtBoundary]
  decide +kernel

theorem parse_slashed_inDeclaration :
    inDeclaration.text.utf8ByteSize < UInt32.size ∧ inDeclaration.AtBoundary ∧ inDeclaration.Apart ∧
      (parse ⟨"a"⟩ inDeclaration.slashed).tree = (parse ⟨"a"⟩ inDeclaration.text).tree ∧
      ∃ reports more, (parse ⟨"a"⟩ inDeclaration.slashed).diagnostics = reports ++ more ∧
        (parse ⟨"a"⟩ inDeclaration.text).diagnostics = reports ++
          (Problem.unknown inDeclaration.token).diagnostic ⟨"a"⟩ (LineTable.ofText inDeclaration.text) :: more := by
  have apart : inDeclaration.Apart := by
    rw [Apart]
    decide +kernel
  have small : inDeclaration.text.utf8ByteSize < UInt32.size := by decide +kernel
  exact ⟨small, inDeclaration_atBoundary, apart,
    parse_slashed inDeclaration small inDeclaration_atBoundary apart ⟨"a"⟩⟩

/-- Spaces in place of the whole comment give the class its name back. -/
theorem comment_hides_name :
    ¬ ∀ d : Commented, d.AtBoundary → ∀ path, (parse path d.blanked).tree = (parse path d.text).tree ∧
      (parse path d.blanked).diagnostics = (parse path d.text).diagnostics := by
  intro transparent
  have same := (transparent inDeclaration inDeclaration_atBoundary ⟨"a"⟩).1
  have names : (parse ⟨"a"⟩ inDeclaration.blanked).tree.items.map (·.name) = [some "A"] ∧
      (parse ⟨"a"⟩ inDeclaration.text).tree.items.map (·.name) = [none] := by
    decide +kernel
  rw [same, names.2] at names
  exact absurd names.1 (by decide)

end Commented

end CodeWorkspace.Outline
