import CodeWorkspace.Proofs.Text.Lines
import CodeWorkspace.Proofs.Token.Boundary

/-! A text behind another one. Where the one in front ends its last line and has nothing unknown in it, no token of it
goes on behind its end; but for trivia both are scanned each on its own. -/
namespace CodeWorkspace.Token

def shift (t : Token) (offset : Nat) : Token := { t with range := t.range.shift offset }

@[simp] theorem shift_kind (t : Token) (offset : Nat) : (t.shift offset).kind = t.kind := rfl

@[simp] theorem shift_text (t : Token) (offset : Nat) : (t.shift offset).text = t.text := rfl

@[simp] theorem shift_range (t : Token) (offset : Nat) : (t.shift offset).range = t.range.shift offset := rfl

theorem lexFrom_shift (offset start : Nat) (text : List Char) :
    lexFrom (offset + start) text = (lexFrom start text).map (·.shift offset) := by
  fun_induction lexFrom start text with
  | case1 => rw [lexFrom, List.map_nil]
  | case2 start c text stop ih =>
    have stop_eq : offset + start + byteLength (c :: (cut c text).taken) = offset + stop := Nat.add_assoc ..
    rw [lexFrom, stop_eq, ih]
    rfl

theorem filter_map_shift {p : Token → Bool} (blind : ∀ t offset, p (shift t offset) = p t) (offset : Nat)
    (tokens : List Token) : (tokens.map (·.shift offset)).filter p = (tokens.filter p).map (·.shift offset) := by
  rw [List.filter_map]
  congr 2
  funext t
  exact blind t offset

variable {c : Char} {kind : TokenKind} {taken rest : List Char} {stop : List Char → Prop}

/-- A known token that ends in a newline is space. -/
theorem Form.spaces_of_newline (form : Form c kind taken stop) (known : kind ≠ .unknown)
    (newline : (c :: taken).getLast? = some '\n') : ∀ d ∈ c :: taken, isSpace d = true := by
  have mem : '\n' ∈ c :: taken := List.mem_of_getLast? newline
  have no_word (inside : ∀ d ∈ c :: taken, isWordPart d = true) : False := by
    have := inside '\n' mem
    revert this
    decide
  cases form with
  | whitespace space inside => exact List.forall_mem_cons.mpr ⟨space, inside⟩
  | word start inside =>
    exact (no_word (List.forall_mem_cons.mpr ⟨by simp [isWordPart, start], inside⟩)).elim
  | number digit inside =>
    exact (no_word (List.forall_mem_cons.mpr ⟨by simp [isWordPart, digit], inside⟩)).elim
  | quoted quote =>
    rw [← List.cons_append, List.getLast?_concat, Option.some.injEq] at newline
    rcases quote with rfl | rfl <;> cases newline
  | openQuote => exact absurd rfl known
  | comment slash inside =>
    subst slash
    simp only [List.mem_cons, Char.reduceEq, false_or] at mem
    exact absurd rfl (inside _ mem)
  | block => exact absurd rfl known
  | slash slash =>
    subst slash
    cases newline
  | symbol space =>
    obtain rfl : c = '\n' := by simpa using newline
    cases space

/-- Every text is made up of whole tokens. -/
theorem whole_nil (front : List Char) : Whole [] front := by
  fun_induction lexFrom 0 front with
  | case1 => exact .nil
  | case2 _ c text stop ih =>
    have here : cut c ((cut c text).taken ++ ((cut c text).rest ++ [])) =
        ⟨(cut c text).kind, (cut c text).taken, (cut c text).rest ++ []⟩ := by
      rw [List.append_nil, cut_split]
    have whole := Whole.token here ih
    rwa [List.cons_append, cut_split] at whole

theorem solid_lexFrom_append {front : List Char} (newline : ∀ c ∈ front.getLast?, c = '\n') (offset : Nat)
    (known : ∀ t ∈ lexFrom offset front, t.kind ≠ .unknown) (behind : List Char) :
    solid (lexFrom offset (front ++ behind)) =
      solid (lexFrom offset front) ++ solid (lexFrom (offset + byteLength front) behind) := by
  induction whole_nil front generalizing offset with
  | nil => simp [lexFrom, solid]
  | @token c kind taken more here _ ih =>
    rw [List.append_nil] at here
    obtain ⟨stop, form, ends⟩ := form_cut c (taken ++ more)
    rw [here] at form ends
    rw [List.cons_append, lexFrom_cut here] at known
    rw [byteLength_append, ← Nat.add_assoc, List.append_assoc, List.cons_append, List.cons_append, lexFrom_cut here]
    obtain ⟨first, known⟩ := List.forall_mem_cons.mp known
    by_cases last : more = []
    · -- Space at the end takes in the space behind it; everything else stays as it is.
      subst last
      have spaces : ∀ d ∈ c :: taken, isSpace d = true := by
        apply form.spaces_of_newline first
        rw [List.append_nil] at newline
        rw [List.getLast?_cons, newline _ (List.getLast?_cons ..)]
      have alone := solid_lexFrom_spaces spaces offset []
      rw [List.cons_append, lexFrom_cut here] at alone
      rw [List.nil_append, ← List.cons_append, solid_lexFrom_spaces spaces, alone]
      simp [lexFrom, solid]
    · have extended : stop (more ++ behind) :=
        form.extend ends (fun none => absurd none last) fun unknown => absurd unknown first
      have newline : ∀ d ∈ more.getLast?, d = '\n' := by
        rwa [List.getLast?_append_of_ne_nil _ last] at newline
      rw [lexFrom_cut (cut_of_form form extended), ← List.singleton_append, solid_append, ih newline _ known,
        ← List.append_assoc, ← solid_append, List.singleton_append]

theorem solid_map_shift (offset : Nat) (tokens : List Token) :
    solid (tokens.map (·.shift offset)) = (solid tokens).map (·.shift offset) :=
  filter_map_shift (fun _ _ => rfl) offset tokens

/-- The tokens of the text behind stand further on by the length of the one in front. -/
theorem solid_lex_append {a b : String} (newline : a.toList.getLast? = some '\n')
    (known : ∀ t ∈ lex a, t.kind ≠ .unknown) :
    solid (lex (a ++ b)) = solid (lex a) ++ (solid (lex b)).map (·.shift (byteLength a.toList)) := by
  have ends : ∀ c ∈ a.toList.getLast?, c = '\n' := by
    intro c mem
    rw [newline] at mem
    exact (Option.some.inj mem).symm
  have shifted := lexFrom_shift (byteLength a.toList) 0 b.toList
  rw [Nat.add_zero] at shifted
  rw [lex, String.toList_append, solid_lexFrom_append ends 0 known, Nat.zero_add, shifted, solid_map_shift]
  rfl

end CodeWorkspace.Token
