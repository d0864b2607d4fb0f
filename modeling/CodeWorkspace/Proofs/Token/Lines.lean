import CodeWorkspace.Proofs.Text.Positions
import CodeWorkspace.Proofs.Token.Concat

/-! Tokens and lines. But for white space only block comments go over their line, so a text without one can be scanned
line by line: the end of a line ends tokens just as the end of a text does. -/
namespace CodeWorkspace.Token

/-! ## Newlines in tokens -/

/-- Unknown from a slash and a star on. -/
def isBlockComment (t : Token) : Bool := t.kind = .unknown && ['/', '*'].isPrefixOf t.text.toList

theorem Quoted.newline_not_mem {quote : Char} {body : List Char} (h : Quoted quote body) : '\n' ∉ body := by
  induction h with
  | nil => simp
  | plain same_line _ _ _ ih => simp [same_line.symm, ih]
  | escaped same_line _ ih => simp [same_line.symm, ih]

theorem newline_not_mem_of_isWordPart {text : List Char} (inside : ∀ c ∈ text, isWordPart c = true) : '\n' ∉ text :=
  fun mem => absurd (inside _ mem) (by decide)

/-- Newlines are in white space and in block comments only. -/
theorem Form.newline_not_mem {c : Char} {kind : TokenKind} {taken : List Char} {stop : List Char → Prop}
    (form : Form c kind taken stop) (solid : kind ≠ .whitespace) :
    kind = .unknown ∧ ['/', '*'] <+: c :: taken ∨ '\n' ∉ c :: taken := by
  cases form with
  | whitespace => exact absurd rfl solid
  | word start inside =>
    refine .inr (newline_not_mem_of_isWordPart (List.forall_mem_cons.mpr ⟨?_, inside⟩))
    rw [isWordPart, start, Bool.true_or]
  | number digit inside =>
    refine .inr (newline_not_mem_of_isWordPart (List.forall_mem_cons.mpr ⟨?_, inside⟩))
    rw [isWordPart, digit, Bool.or_true]
  | quoted quote inside =>
    have other : '\n' ≠ c := by rcases quote with rfl | rfl <;> decide
    exact .inr (by simp [other, inside.newline_not_mem])
  | openQuote quote inside =>
    have other : '\n' ≠ c := by rcases quote with rfl | rfl <;> decide
    exact .inr (by simp [other, inside.newline_not_mem])
  | comment slash inside =>
    subst slash
    exact .inr (by simpa using fun mem => inside _ mem rfl)
  | block slash =>
    subst slash
    exact .inl ⟨rfl, by simp⟩
  | slash slash =>
    subst slash
    exact .inr (by decide)
  | symbol space =>
    have other : '\n' ≠ c := by
      rintro rfl
      cases space
    exact .inr (by simpa using other)

theorem newline_not_mem_of_lexFrom (offset : Nat) (text : List Char) :
    ∀ t ∈ lexFrom offset text, t.kind ≠ .whitespace → t.isBlockComment = false → '\n' ∉ t.text.toList := by
  fun_induction lexFrom offset text with
  | case1 => simp
  | case2 offset c text stop ih =>
    refine List.forall_mem_cons.mpr ⟨fun solid plain => ?_, ih⟩
    obtain ⟨_, form, -⟩ := form_cut c text
    rw [String.toList_ofList]
    rcases form.newline_not_mem solid with comment | single
    · rw [isBlockComment, String.toList_ofList, List.isPrefixOf_iff_prefix.mpr comment.2] at plain
      simp [comment.1] at plain
    · exact single

theorem newline_not_mem_of_scan (text : String) :
    ∀ t ∈ scan text, t.kind ≠ .whitespace → t.isBlockComment = false → '\n' ∉ t.text.toList :=
  List.forall_mem_map.mpr (newline_not_mem_of_lexFrom 0 text.toList)

/-! ## Line by line -/

variable {c : Char} {kind : TokenKind} {taken rest : List Char} {stop : List Char → Prop}

/-- The tokens that are not white space. -/
def visible (tokens : List Token) : List Token := tokens.filter (·.kind ≠ .whitespace)

theorem visible_append (a b : List Token) : visible (a ++ b) = visible a ++ visible b := List.filter_append a b

theorem visible_map_shift (offset : Nat) (tokens : List Token) :
    visible (tokens.map (·.shift offset)) = (visible tokens).map (·.shift offset) :=
  filter_map_shift (fun _ _ => rfl) offset tokens

theorem visible_lexFrom_spaces {spaces : List Char} (h : ∀ c ∈ spaces, isSpace c = true) (offset : Nat)
    (text : List Char) :
    visible (lexFrom offset (spaces ++ text)) = visible (lexFrom (offset + byteLength spaces) text) :=
  filter_lexFrom_spaces (fun t space => by simp [space]) h offset text

theorem Stops.newline {part : Char → Bool} (h : Stops part rest) (ends : rest = [] → part '\n' = false)
    (more : List Char) : Stops part (rest ++ '\n' :: more) := by
  cases rest with
  | nil =>
    rintro _ ⟨⟩
    exact ends rfl
  | cons d rest => exact h

/-- A newline may take the place of the end of the text, unless the token is space or a block comment. -/
theorem Form.newline (form : Form c kind taken stop) (ends : stop rest) (plain : ¬ ['/', '*'] <+: c :: taken)
    (solid : rest = [] → kind ≠ .whitespace) (more : List Char) : stop (rest ++ '\n' :: more) := by
  cases form with
  | whitespace => exact Stops.newline ends (fun last => absurd rfl (solid last)) more
  | word => exact Stops.newline ends (fun _ => rfl) more
  | number => exact Stops.newline ends (fun _ => rfl) more
  | quoted => trivial
  | openQuote =>
    rcases ends with ended | ⟨behind, rfl, ended⟩
    · exact .inl (Stops.newline ended (fun _ => rfl) more)
    · exact .inr ⟨behind ++ '\n' :: more, rfl, Stops.newline ended (fun _ => rfl) more⟩
  | comment => exact Stops.newline ends (fun _ => rfl) more
  | block slash =>
    subst slash
    exact absurd (by simp) plain
  | slash => exact Stops.newline ends (fun _ => rfl) more
  | symbol => trivial

theorem Form.spaces (form : Form c kind taken stop) (space : kind = .whitespace) :
    ∀ d ∈ c :: taken, isSpace d = true := by
  cases form with
  | whitespace here inside => exact List.forall_mem_cons.mpr ⟨here, inside⟩
  | word =>
    have := (ofWord_significant (String.ofList (c :: taken))).1
    rw [space] at this
    cases this
  | symbol =>
    have := (symbolKind_significant c).1
    rw [space] at this
    cases this
  | _ => cases space

/-- What stands behind a newline is scanned on its own. -/
theorem visible_lexFrom_newline {front : List Char} (plain : ¬ ['/', '*'] <:+: front) (offset : Nat)
    (behind : List Char) :
    visible (lexFrom offset (front ++ '\n' :: behind)) =
      visible (lexFrom offset front) ++ visible (lexFrom (offset + byteLength front + 1) behind) := by
  have blank : ∀ c ∈ ['\n'], isSpace c = true := List.forall_mem_singleton.mpr (by decide +kernel)
  have break_ (offset : Nat) :
      visible (lexFrom offset ('\n' :: behind)) = visible (lexFrom (offset + 1) behind) :=
    visible_lexFrom_spaces blank offset behind
  induction whole_nil front generalizing offset with
  | nil =>
    rw [List.nil_append, break_, lexFrom]
    rfl
  | @token c kind taken more here _ ih =>
    rw [List.append_nil] at here
    obtain ⟨stop, form, ends⟩ := form_cut c (taken ++ more)
    rw [here] at form ends
    have later : ¬ ['/', '*'] <:+: more := fun inside => plain (inside.trans (List.infix_append_right ..))
    have now : ¬ ['/', '*'] <+: c :: taken := fun first => plain (first.isInfix.trans (List.infix_append_left ..))
    rw [byteLength_append, ← Nat.add_assoc, List.append_assoc]
    by_cases last : more = [] ∧ kind = .whitespace
    · -- Space at the end takes in the newline and whatever space is behind it.
      obtain ⟨rfl, space⟩ := last
      have spaces := form.spaces space
      have alone := visible_lexFrom_spaces spaces offset []
      rw [List.append_nil] at alone
      rw [List.nil_append, List.append_nil, visible_lexFrom_spaces spaces, alone, break_]
      simp [lexFrom, visible]
    · have extended : stop (more ++ '\n' :: behind) :=
        form.newline ends now (fun none space => last ⟨none, space⟩) behind
      rw [List.cons_append, List.cons_append, lexFrom_cut here, lexFrom_cut (cut_of_form form extended),
        ← List.singleton_append, visible_append, ih later, ← List.append_assoc, ← visible_append, List.singleton_append]

theorem breaksFrom_of_not_mem {line : List Char} (single : '\n' ∉ line) (offset : Nat) :
    LineTable.breaksFrom offset line = [] := by
  rw [← List.length_eq_zero_iff, LineTable.length_breaksFrom, List.count_eq_zero]
  exact single

/-- Line by line, each from the offset at which the line table has it begin. -/
theorem visible_lexFrom_lines (offset : Nat) (text : List Char) (plain : ¬ ['/', '*'] <:+: text) :
    visible (lexFrom offset text) =
      ((offset :: LineTable.breaksFrom offset text).zip (text.splitOn '\n')).flatMap fun x =>
        visible (lexFrom x.1 x.2) := by
  by_cases newline : '\n' ∈ text
  · obtain ⟨line, rest, rfl, single⟩ := List.eq_append_cons_of_mem newline
    have here : ¬ ['/', '*'] <:+: line := fun inside => plain (inside.trans (List.infix_append_left ..))
    have later : ¬ ['/', '*'] <:+: rest := fun inside =>
      plain ((List.infix_cons inside).trans (List.infix_append_right ..))
    have next : LineTable.breaksFrom (offset + byteLength line) ('\n' :: rest) =
        (offset + byteLength line + 1) :: LineTable.breaksFrom (offset + byteLength line + 1) rest := by
      rw [LineTable.breaksFrom, if_pos rfl]
      rfl
    rw [visible_lexFrom_newline here, visible_lexFrom_lines (offset + byteLength line + 1) rest later,
      List.splitOn_append_cons_self, List.splitOn_eq_singleton single, LineTable.breaksFrom_append,
      breaksFrom_of_not_mem single, next]
    rfl
  · rw [List.splitOn_eq_singleton newline, breaksFrom_of_not_mem newline]
    simp
termination_by text.length
decreasing_by
  subst_vars
  simp
  omega

/-- What each line of a text has by itself, from the offset at which the line begins. -/
def lineByLine (text : String) : List Token :=
  ((LineTable.unbounded text.toList).starts.zip (text.toList.splitOn '\n')).flatMap fun line =>
    (visible (scan (String.ofList line.2))).map (·.shift line.1)

theorem visible_map_saturated (tokens : List Token) :
    visible (tokens.map (·.saturated)) = (visible tokens).map (·.saturated) :=
  filter_map_saturated (fun _ => rfl) tokens

theorem visible_lex {text : String} (plain : ¬ ['/', '*'] <:+: text.toList) :
    visible (lex text) =
      ((LineTable.unbounded text.toList).starts.zip (text.toList.splitOn '\n')).flatMap fun line =>
        (visible (lex (String.ofList line.2))).map (·.shift line.1) := by
  rw [lex, visible_lexFrom_lines 0 text.toList plain]
  refine List.flatMap_congr fun line _ => ?_
  have shifted := lexFrom_shift line.1 0 line.2
  rw [Nat.add_zero] at shifted
  have alone : lexFrom 0 line.2 = lex (String.ofList line.2) := by rw [lex, String.toList_ofList]
  rw [shifted, alone, visible_map_shift]

/-- Words do not tell whether an offset was saturated before it was shifted. -/
theorem saturated_shift (t : Token) (offset : Nat) :
    (t.saturated.shift offset).saturated = (t.shift offset).saturated := by
  have twice (n : Nat) : saturateOffset (offset + saturateOffset n) = saturateOffset (offset + n) := by
    simp only [saturateOffset]
    omega
  simp only [saturated, shift, ByteRange.shift, twice]

theorem visible_scan {text : String} (plain : ¬ ['/', '*'] <:+: text.toList) :
    visible (scan text) = (lineByLine text).map (·.saturated) := by
  rw [scan, visible_map_saturated, visible_lex plain, lineByLine, List.map_flatMap, List.map_flatMap]
  refine List.flatMap_congr fun line _ => ?_
  rw [scan, visible_map_saturated, List.map_map, List.map_map, List.map_map]
  exact List.map_congr_left fun t _ => (saturated_shift t line.1).symm

theorem byteLength_le_of_mem_splitOn {text line : List Char} (mem : line ∈ text.splitOn '\n') :
    byteLength line ≤ byteLength text := by
  induction text generalizing line with
  | nil =>
    obtain rfl : line = [] := by simpa using mem
    exact Nat.le_refl _
  | cons c text ih =>
    rw [List.splitOn_cons_eq_if_modifyHead] at mem
    rw [byteLength_cons]
    split at mem
    · rcases List.mem_cons.mp mem with rfl | mem
      · exact Nat.zero_le _
      · exact Nat.le_add_left_of_le (ih mem)
    · obtain ⟨first, lines, split⟩ := List.exists_cons_of_ne_nil (List.splitOn_ne_nil '\n' text)
      rw [split] at ih mem
      rcases List.mem_cons.mp mem with rfl | mem
      · exact Nat.add_le_add_left (ih List.mem_cons_self) _
      · exact Nat.le_add_left_of_le (ih (List.mem_cons_of_mem _ mem))

theorem visible_scan_of_lt {text : String} (plain : ¬ ['/', '*'] <:+: text.toList)
    (small : text.utf8ByteSize < UInt32.size) : visible (scan text) = lineByLine text := by
  rw [scan_eq_lex small, visible_lex plain, lineByLine]
  refine List.flatMap_congr fun line mem => ?_
  have fits : (String.ofList line.2).utf8ByteSize < UInt32.size := by
    rw [utf8ByteSize_ofList]
    rw [utf8ByteSize_eq] at small
    exact Nat.lt_of_le_of_lt (byteLength_le_of_mem_splitOn (List.of_mem_zip mem).2) small
  rw [scan_eq_lex fits]

/-- Whatever is damaged stays on its line: of the tokens of a text, only white space and block comments go over a line,
and where nothing begins a block comment, all but white space is what the lines have, each scanned on its own. Offsets
that do not fit a word of 32 bits are the last that does; a text of less than four gigabytes has none. -/
theorem scan_line_by_line (text : String) :
    (∀ t ∈ scan text, '\n' ∈ t.text.toList →
      t.kind = .whitespace ∨ t.kind = .unknown ∧ ['/', '*'] <+: t.text.toList) ∧
    (¬ ['/', '*'] <:+: text.toList →
      visible (scan text) = (lineByLine text).map (·.saturated) ∧
        (text.utf8ByteSize < UInt32.size → visible (scan text) = lineByLine text)) := by
  refine ⟨fun t mem newline => ?_, fun plain => ⟨visible_scan plain, visible_scan_of_lt plain⟩⟩
  by_cases space : t.kind = .whitespace
  · exact .inl space
  · right
    cases comment : t.isBlockComment with
    | false => exact absurd newline (newline_not_mem_of_scan text t mem space comment)
    | true => simpa [isBlockComment] using comment

/-- A word behind a line of four gigabytes. -/
def behindSpaces : String := spaces UInt32.size ++ "\na"

theorem visible_scan_ne_lineByLine :
    ¬ ['/', '*'] <:+: behindSpaces.toList ∧ visible (scan behindSpaces) ≠ lineByLine behindSpaces := by
  have text : behindSpaces.toList = List.replicate UInt32.size ' ' ++ ['\n', 'a'] := by
    rw [behindSpaces, String.toList_append, spaces, String.toList_ofList]
    rfl
  constructor
  · intro inside
    have mem : '*' ∈ behindSpaces.toList := inside.subset (by simp)
    rw [text, List.mem_append, List.mem_replicate] at mem
    simp at mem
  · have blank : '\n' ∉ List.replicate UInt32.size ' ' := by simp [List.mem_replicate]
    have starts : (LineTable.unbounded behindSpaces.toList).starts = [0, UInt32.size + 1] := by
      rw [text, LineTable.starts, LineTable.unbounded, LineTable.breaksFrom_append, breaksFrom_of_not_mem blank,
        byteLength_spaces]
      rfl
    have lines : behindSpaces.toList.splitOn '\n' = [List.replicate UInt32.size ' ', ['a']] := by
      rw [text, List.splitOn_append_cons_self_of_not_mem blank]
      rfl
    have word : visible (scan "a") = [⟨.ident, "a", ⟨0, 1⟩⟩] := by decide +kernel
    -- The word would stand behind the last offset that is kept.
    have far : ⟨.ident, "a", ⟨UInt32.size + 1, UInt32.size + 2⟩⟩ ∈ lineByLine behindSpaces := by
      rw [lineByLine, starts, lines]
      refine List.mem_flatMap.mpr ⟨(UInt32.size + 1, ['a']), by simp, ?_⟩
      exact List.mem_map.mpr ⟨⟨.ident, "a", ⟨0, 1⟩⟩, by rw [show String.ofList ['a'] = "a" from rfl, word]; simp, rfl⟩
    intro same
    rw [← same] at far
    have kept := stop_lt_of_scan behindSpaces _ (List.mem_of_mem_filter far)
    exact absurd kept (by decide)

/-- A literal that the end of its line cuts off behind a backslash, and one that the end of the text cuts off. -/
example : (visible (scan "a \"b\\\n'c")).map (fun t => (t.kind, t.text, t.range.start)) =
    [(.ident, "a", 0), (.unknown, "\"b", 2), (.punctuation, "\\", 4), (.unknown, "'c", 6)] := by
  decide +kernel

end CodeWorkspace.Token
