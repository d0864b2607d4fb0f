import CodeWorkspace.Proofs.Token.Forms

/-! Texts cut at the boundary between two tokens. What stands behind a boundary may be taken away, and the tokens before
it stay; another text may take its place as long as the last token does not go on into it. -/
namespace CodeWorkspace.Token

variable {c : Char} {kind : TokenKind} {taken rest more : List Char} {stop : List Char → Prop}

/-! ## One token -/

theorem ofWord_significant (word : String) :
    (TokenKind.ofWord word).isTrivia = false ∧ TokenKind.ofWord word ≠ .unknown := by
  unfold TokenKind.ofWord
  split_ifs <;> exact ⟨rfl, nofun⟩

theorem symbolKind_significant (c : Char) : (symbolKind c).isTrivia = false ∧ symbolKind c ≠ .unknown := by
  unfold symbolKind
  split_ifs <;> exact ⟨rfl, nofun⟩

theorem Stops.shorten {part : Char → Bool} (h : Stops part (rest ++ more)) : Stops part rest := by
  cases rest with
  | nil => exact fun _ none => by cases none
  | cons d rest => exact h

theorem Stops.extend {part : Char → Bool} (h : Stops part rest) (here : rest ≠ []) : Stops part (rest ++ more) := by
  cases rest with
  | nil => exact absurd rfl here
  | cons d rest => exact h

/-- The end of a text stops every token that something else would stop. -/
theorem Form.shorten (form : Form c kind taken stop) (ends : stop (rest ++ more)) : stop rest := by
  cases form with
  | whitespace => exact Stops.shorten ends
  | word => exact Stops.shorten ends
  | number => exact Stops.shorten ends
  | quoted => trivial
  | openQuote =>
    rcases ends with ended | ⟨behind, same, ended⟩
    · exact .inl (Stops.shorten ended)
    · cases rest with
      | nil => exact .inl fun _ none => by cases none
      | cons d rest =>
        obtain ⟨rfl, rfl⟩ := List.cons.inj same
        exact .inr ⟨rest, rfl, Stops.shorten ended⟩
  | comment => exact Stops.shorten ends
  | block =>
    cases rest with
    | nil => exact fun _ none => by cases none
    | cons d rest => exact ends
  | slash => exact Stops.shorten ends
  | symbol => trivial

/-- Two characters decide whether a token ends, so a text may go on behind them in any way. Where nothing was behind
the token, it may go on with a space, unless the token could take that in. -/
theorem Form.extend (form : Form c kind taken stop) (ends : stop rest)
    (last : rest = [] → kind.isTrivia = false ∧ kind ≠ .unknown ∧ ∃ s ∈ more.head?, isSpace s = true)
    (escape : kind = .unknown → rest ≠ ['\\']) : stop (rest ++ more) := by
  by_cases here : rest = []
  · subst here
    obtain ⟨solid, known, s, head, space⟩ := last rfl
    have next {d : Char} (hd : d ∈ ([] ++ more).head?) : d = s := Option.mem_unique hd head
    cases form with
    | whitespace => cases solid
    | word => exact fun d hd => by rw [next hd, isWordPart_of_isSpace space]
    | number => exact fun d hd => by rw [next hd, isWordPart_of_isSpace space]
    | quoted => trivial
    | openQuote => exact absurd rfl known
    | comment => cases solid
    | block => exact absurd rfl known
    | slash =>
      intro d hd
      rw [next hd, ← Bool.not_eq_true]
      simp only [Bool.or_eq_true, decide_eq_true_eq]
      rintro (rfl | rfl) <;> cases space
    | symbol => trivial
  · cases form with
    | whitespace => exact Stops.extend ends here
    | word => exact Stops.extend ends here
    | number => exact Stops.extend ends here
    | quoted => trivial
    | openQuote =>
      rcases ends with ended | ⟨behind, rfl, ended⟩
      · exact .inl (Stops.extend ended here)
      · have more_here : behind ≠ [] := fun none => escape rfl (by rw [none])
        exact .inr ⟨behind ++ more, rfl, Stops.extend ended more_here⟩
    | comment => exact Stops.extend ends here
    | block =>
      cases rest with
      | nil => exact absurd rfl here
      | cons d rest => exact ends
    | slash => exact Stops.extend ends here
    | symbol => trivial

/-- What is behind a token in front of something else stays behind it on its own. -/
theorem cut_shorten {c : Char} {kind : TokenKind} {taken more rest : List Char}
    (here : cut c (taken ++ (more ++ rest)) = ⟨kind, taken, more ++ rest⟩) :
    cut c (taken ++ more) = ⟨kind, taken, more⟩ := by
  obtain ⟨stop, form, ends⟩ := form_cut c (taken ++ (more ++ rest))
  rw [here] at form ends
  exact cut_of_form form (form.shorten ends)

/-- No comment ends in front of a slash. Of the trivia, that leaves space. -/
theorem Form.spaces_of_isTrivia (form : Form c kind taken stop) (ends : stop ('/' :: rest))
    (trivia : kind.isTrivia = true) : ∀ d ∈ c :: taken, isSpace d = true := by
  cases form with
  | whitespace space inside => exact List.forall_mem_cons.mpr ⟨space, inside⟩
  | comment => exact absurd (ends '/' rfl) (by decide)
  | word => rw [(ofWord_significant _).1] at trivia; cases trivia
  | symbol => rw [(symbolKind_significant c).1] at trivia; cases trivia
  | _ => cases trivia

/-- What is unknown ends in front of a backslash only if the line ends behind that. -/
theorem Form.ne_unknown (form : Form c kind taken stop) (ends : stop ('\\' :: '/' :: rest)) : kind ≠ .unknown := by
  cases form with
  | openQuote =>
    rcases ends with ended | ⟨more, same, ended⟩
    · exact absurd (ended '\\' rfl) (by decide)
    · obtain rfl : '/' :: rest = more := (List.cons.inj same).2
      exact absurd (ended '/' rfl) (by decide)
  | block => exact absurd (ends '\\' rfl).1 (by decide)
  | word => exact (ofWord_significant _).2
  | symbol => exact (symbolKind_significant c).2
  | _ => nofun

/-! ## Whole tokens in front of a rest -/

/-- `front` is made up of whole tokens as long as `rest` stands behind it. -/
inductive Whole (rest : List Char) : List Char → Prop where
  | nil : Whole rest []
  | token {c : Char} {kind : TokenKind} {taken more : List Char}
      (here : cut c (taken ++ (more ++ rest)) = ⟨kind, taken, more ++ rest⟩) (behind : Whole rest more) :
      Whole rest (c :: taken ++ more)

theorem byteLength_eq_zero {text : List Char} (h : byteLength text = 0) : text = [] := by
  cases text with
  | nil => rfl
  | cons c text =>
    have := c.utf8Size_pos
    rw [byteLength_cons] at h
    omega

/-- Of two ways to split a text, the one that is no longer in front leaves something of the other's front. -/
theorem split_of_byteLength_le {a b front rest : List Char} (same : a ++ b = front ++ rest)
    (le : byteLength a ≤ byteLength front) : ∃ more, front = a ++ more ∧ b = more ++ rest := by
  rcases List.append_eq_append_iff.mp same with ⟨more, front_eq, b_eq⟩ | ⟨excess, a_eq, rest_eq⟩
  · exact ⟨more, front_eq, b_eq⟩
  · have none : excess = [] := by
      apply byteLength_eq_zero
      rw [a_eq, byteLength_append] at le
      omega
    subst none
    exact ⟨[], by simpa using a_eq.symm, by simpa using rest_eq.symm⟩

theorem Ordered.start_le {start : Nat} {tokens : List Token} (h : Ordered start tokens) :
    ∀ t ∈ tokens, start ≤ t.range.start := by
  induction tokens generalizing start with
  | nil => simp
  | cons t tokens ih =>
    refine List.forall_mem_cons.mpr ⟨h.1, fun u hu => ?_⟩
    have := ih h.2.2 u hu
    have := h.1
    have := h.2.1
    omega

theorem whole_of_start {offset : Nat} {front rest : List Char}
    (boundary : ∃ t ∈ lexFrom offset (front ++ rest), t.range.start = offset + byteLength front) :
    Whole rest front := by
  obtain ⟨t, ht, starts⟩ := boundary
  generalize same : front ++ rest = text at ht
  revert front
  fun_induction lexFrom offset text with
  | case1 => cases ht
  | case2 offset c text stop ih =>
    intro front starts same
    cases front with
    | nil => exact .nil
    | cons d front =>
      obtain ⟨rfl, rfl⟩ := List.cons.inj same
      have stop_eq : stop = offset + (d.utf8Size + byteLength (cut d (front ++ rest)).taken) := rfl
      have nonempty := d.utf8Size_pos
      rw [byteLength_cons] at starts
      rcases List.mem_cons.mp ht with rfl | ht
      · simp only at starts
        omega
      -- A later token starts at the boundary, so this one ends in front of it or right there.
      have behind := (ordered_lexFrom _ _).start_le t ht
      obtain ⟨more, front_eq, rest_eq⟩ := split_of_byteLength_le (cut_split d (front ++ rest)) (by omega)
      have front_length := congrArg byteLength front_eq
      rw [byteLength_append] at front_length
      have whole : Whole rest more := ih ht (show t.range.start = stop + byteLength more by omega) rest_eq.symm
      have here : cut d (front ++ rest) =
          ⟨(cut d (front ++ rest)).kind, (cut d (front ++ rest)).taken, more ++ rest⟩ := by
        rw [← rest_eq]
      generalize (cut d (front ++ rest)).taken = taken, (cut d (front ++ rest)).kind = kind at front_eq here
      rw [front_eq, List.append_assoc] at here
      rw [front_eq]
      exact .token here whole

theorem lexFrom_cut {text : List Char} (here : cut c text = ⟨kind, taken, rest⟩) (offset : Nat) :
    lexFrom offset (c :: text) =
      ⟨kind, String.ofList (c :: taken), ⟨offset, offset + byteLength (c :: taken)⟩⟩ ::
        lexFrom (offset + byteLength (c :: taken)) rest := by
  rw [lexFrom, here]

/-- Text behind whole tokens is scanned on its own. -/
theorem Whole.lexFrom_append {front rest : List Char} (whole : Whole rest front) (offset : Nat) :
    lexFrom offset (front ++ rest) = lexFrom offset front ++ lexFrom (offset + byteLength front) rest := by
  induction whole generalizing offset with
  | nil => simp [lexFrom]
  | token here behind ih =>
    rw [byteLength_append, ← Nat.add_assoc, List.append_assoc, List.cons_append, List.cons_append, lexFrom_cut here,
      lexFrom_cut (cut_shorten here), ih, List.cons_append]

/-! ## Another text behind the boundary -/

/-- The tokens that are not trivia. -/
def solid (tokens : List Token) : List Token := tokens.filter (!·.kind.isTrivia)

theorem solid_append (a b : List Token) : solid (a ++ b) = solid a ++ solid b := List.filter_append a b

theorem solid_trivia {t : Token} (h : t.kind.isTrivia = true) (tokens : List Token) :
    solid (t :: tokens) = solid tokens :=
  List.filter_cons_of_neg (by simp [h])

theorem solid_other {t : Token} (h : ¬ t.kind.isTrivia = true) (tokens : List Token) :
    solid (t :: tokens) = t :: solid tokens :=
  List.filter_cons_of_pos (by simpa using h)

/-- The space at the beginning of a text is one token, or none. -/
theorem filter_lexFrom_dropWhile {p : Token → Bool} (blind : ∀ t : Token, t.kind = .whitespace → p t = false)
    (offset : Nat) (text : List Char) :
    (lexFrom offset text).filter p =
      (lexFrom (offset + byteLength (text.takeWhile isSpace)) (text.dropWhile isSpace)).filter p := by
  cases text with
  | nil => rfl
  | cons c text =>
    by_cases space : isSpace c = true
    · have here : cut c text = ⟨.whitespace, text.takeWhile isSpace, text.dropWhile isSpace⟩ := by
        rw [cut, if_pos space, cutWhile]
      rw [List.takeWhile_cons_of_pos space, List.dropWhile_cons_of_pos space, lexFrom_cut here,
        List.filter_cons_of_neg (by simp [blind])]
    · rw [List.takeWhile_cons_of_neg space, List.dropWhile_cons_of_neg space]
      rfl

theorem filter_lexFrom_spaces {p : Token → Bool} (blind : ∀ t : Token, t.kind = .whitespace → p t = false)
    {spaces : List Char} (h : ∀ c ∈ spaces, isSpace c = true) (offset : Nat) (text : List Char) :
    (lexFrom offset (spaces ++ text)).filter p = (lexFrom (offset + byteLength spaces) text).filter p := by
  rw [filter_lexFrom_dropWhile blind, List.takeWhile_append_of_pos h, List.dropWhile_append_of_pos h,
    filter_lexFrom_dropWhile blind (offset + byteLength spaces), byteLength_append, Nat.add_assoc]

theorem solid_lexFrom_spaces {spaces : List Char} (h : ∀ c ∈ spaces, isSpace c = true) (offset : Nat)
    (text : List Char) :
    solid (lexFrom offset (spaces ++ text)) = solid (lexFrom (offset + byteLength spaces) text) :=
  filter_lexFrom_spaces (fun t space => by rw [space]; rfl) h offset text

/-- What a slash stands behind, something that begins with a space may stand behind as well: but for trivia the tokens
in front are the same, unless the last of them is unknown and could go on. -/
theorem Whole.solid_lexFrom {front rest other : List Char} (whole : Whole ('/' :: rest) front)
    (space : ∃ s ∈ other.head?, isSpace s = true) (offset : Nat)
    (known : ∀ t ∈ lexFrom offset front, t.kind = .unknown → t.range.stop ≠ offset + byteLength front) :
    solid (lexFrom offset (front ++ other)) =
      solid (lexFrom offset front) ++ solid (lexFrom (offset + byteLength front) other) := by
  induction whole generalizing offset with
  | nil => simp [lexFrom, solid]
  | @token c kind taken more here behind ih =>
    obtain ⟨stop, form, ends⟩ := form_cut c (taken ++ (more ++ '/' :: rest))
    rw [here] at form ends
    rw [byteLength_append, ← Nat.add_assoc, List.cons_append, lexFrom_cut (cut_shorten here)] at known
    rw [byteLength_append, ← Nat.add_assoc, List.append_assoc, List.cons_append, List.cons_append,
      lexFrom_cut (cut_shorten here)]
    obtain ⟨first, known⟩ := List.forall_mem_cons.mp known
    -- Space right in front of the boundary takes in the space behind it; every other token stays as it is.
    by_cases last : more = [] ∧ kind.isTrivia = true
    · obtain ⟨rfl, trivia⟩ := last
      have spaces := form.spaces_of_isTrivia ends trivia
      rw [List.nil_append, ← List.cons_append, solid_lexFrom_spaces spaces, solid_trivia trivia]
      exact ih _ known
    · have extended : stop (more ++ other) := by
        apply form.extend (form.shorten ends)
        · rintro rfl
          refine ⟨by simpa using last, fun unknown => first unknown rfl, space⟩
        · rintro unknown rfl
          exact form.ne_unknown ends unknown
      rw [lexFrom_cut (cut_of_form form extended)]
      by_cases trivia : kind.isTrivia = true
      · rw [solid_trivia trivia, solid_trivia trivia, ih _ known]
      · rw [solid_other trivia, solid_other trivia, ih _ known, List.cons_append]

end CodeWorkspace.Token
