import CodeWorkspace.Proofs.Token.Order
import Mathlib.Data.List.TakeWhile

/-! The forms that tokens take: which characters make one up, and what must not follow for it to end there. Cutting a
text comes to a token just if the token has one of these forms and the rest lets it end. -/
namespace CodeWorkspace.Token

/-! ## Runs of characters -/

/-- No character of this kind comes next. -/
def Stops (part : Char → Bool) (rest : List Char) : Prop := ∀ c ∈ rest.head?, part c = false

theorem cutWhile_eq {kind : TokenKind} {part : Char → Bool} {taken rest : List Char}
    (inside : ∀ c ∈ taken, part c = true) (stop : Stops part rest) :
    cutWhile kind part (taken ++ rest) = ⟨kind, taken, rest⟩ := by
  have none : rest.takeWhile part = [] ∧ rest.dropWhile part = rest := by
    cases rest with
    | nil => exact ⟨rfl, rfl⟩
    | cons c rest =>
      have other : ¬ part c = true := by simp [stop c rfl]
      exact ⟨List.takeWhile_cons_of_neg other, List.dropWhile_cons_of_neg other⟩
  rw [cutWhile, List.takeWhile_append_of_pos inside, List.dropWhile_append_of_pos inside, none.1, none.2,
    List.append_nil]

theorem cutWhile_spec (kind : TokenKind) (part : Char → Bool) (text : List Char) :
    (∀ c ∈ (cutWhile kind part text).taken, part c = true) ∧ Stops part (cutWhile kind part text).rest := by
  constructor
  · intro c hc
    exact List.mem_takeWhile_imp hc
  · intro c hc
    have := List.head?_dropWhile_not part text
    rw [show (text.dropWhile part).head? = some c from hc] at this
    simpa using this

/-! ## Literals in quotes -/

/-- What may stand between quotes: no newline; the quote itself and a backslash only behind a backslash. -/
inductive Quoted (quote : Char) : List Char → Prop where
  | nil : Quoted quote []
  | plain {c : Char} {more : List Char} (same_line : c ≠ '\n') (no_escape : c ≠ '\\') (inside : c ≠ quote)
      (rest : Quoted quote more) : Quoted quote (c :: more)
  | escaped {c : Char} {more : List Char} (same_line : c ≠ '\n') (rest : Quoted quote more) :
      Quoted quote ('\\' :: c :: more)

/-- The line is over, or the text. -/
def LineEnds (rest : List Char) : Prop := Stops (· ≠ '\n') rest

/-- The line is over, but for a backslash perhaps. -/
def QuoteEnds (rest : List Char) : Prop := LineEnds rest ∨ ∃ more, rest = '\\' :: more ∧ LineEnds more

theorem cutQuoted_cons {quote c : Char} (no_escape : c ≠ '\\') (rest : List Char) :
    cutQuoted quote (c :: rest) =
      if c = '\n' then ⟨.unknown, [], c :: rest⟩
      else if c = quote then ⟨.literal, [c], rest⟩
      else (cutQuoted quote rest).cons c :=
  cutQuoted.eq_4 quote c rest (fun escape _ => no_escape escape) fun _ _ escape _ => no_escape escape

theorem cutQuoted_plain {quote c : Char} (same_line : c ≠ '\n') (no_escape : c ≠ '\\') (inside : c ≠ quote)
    (rest : List Char) : cutQuoted quote (c :: rest) = (cutQuoted quote rest).cons c := by
  rw [cutQuoted_cons no_escape, if_neg same_line, if_neg inside]

theorem cutQuoted_escaped {quote c : Char} (same_line : c ≠ '\n') (rest : List Char) :
    cutQuoted quote ('\\' :: c :: rest) = ((cutQuoted quote rest).cons c).cons '\\' := by
  rw [cutQuoted, if_neg same_line]

theorem cutQuoted_closed {quote : Char} {body : List Char} (same_line : quote ≠ '\n') (no_escape : quote ≠ '\\')
    (inside : Quoted quote body) (rest : List Char) :
    cutQuoted quote (body ++ quote :: rest) = ⟨.literal, body ++ [quote], rest⟩ := by
  induction inside with
  | nil => rw [List.nil_append, cutQuoted_cons no_escape, if_neg same_line, if_pos rfl, List.nil_append]
  | plain same_line no_escape inside _ ih =>
    rw [List.cons_append, cutQuoted_plain same_line no_escape inside, ih]
    rfl
  | escaped same_line _ ih =>
    rw [List.cons_append, List.cons_append, cutQuoted_escaped same_line, ih]
    rfl

theorem cutQuoted_open {quote : Char} {body rest : List Char} (inside : Quoted quote body) (stop : QuoteEnds rest) :
    cutQuoted quote (body ++ rest) = ⟨.unknown, body, rest⟩ := by
  induction inside with
  | nil =>
    rcases stop with ended | ⟨more, rfl, ended⟩
    · cases rest with
      | nil => rfl
      | cons c rest =>
        obtain rfl : c = '\n' := by simpa using ended c rfl
        rw [List.nil_append, cutQuoted_cons (by decide), if_pos rfl]
    · cases more with
      | nil => rfl
      | cons c more =>
        obtain rfl : c = '\n' := by simpa using ended c rfl
        rw [List.nil_append, cutQuoted, if_pos rfl]
  | plain same_line no_escape inside _ ih =>
    rw [List.cons_append, cutQuoted_plain same_line no_escape inside, ih]
    rfl
  | escaped same_line _ ih =>
    rw [List.cons_append, List.cons_append, cutQuoted_escaped same_line, ih]
    rfl

theorem cutQuoted_spec (quote : Char) (text : List Char) :
    ∃ body, Quoted quote body ∧
      ((cutQuoted quote text).kind = .literal ∧ (cutQuoted quote text).taken = body ++ [quote] ∨
        (cutQuoted quote text).kind = .unknown ∧ (cutQuoted quote text).taken = body ∧
          QuoteEnds (cutQuoted quote text).rest) := by
  fun_induction cutQuoted quote text with
  | case1 => exact ⟨[], .nil, .inr ⟨rfl, rfl, .inl (by simp [LineEnds, Stops])⟩⟩
  | case2 => exact ⟨[], .nil, .inr ⟨rfl, rfl, .inr ⟨[], rfl, by simp [LineEnds, Stops]⟩⟩⟩
  | case3 rest => exact ⟨[], .nil, .inr ⟨rfl, rfl, .inr ⟨'\n' :: rest, rfl, by simp [LineEnds, Stops]⟩⟩⟩
  | case4 c rest same_line ih =>
    obtain ⟨body, inside, closed | open_⟩ := ih
    · exact ⟨'\\' :: c :: body, .escaped same_line inside, .inl ⟨closed.1, by simp [closed.2]⟩⟩
    · exact ⟨'\\' :: c :: body, .escaped same_line inside, .inr ⟨open_.1, by simp [open_.2.1], open_.2.2⟩⟩
  | case5 rest => exact ⟨[], .nil, .inr ⟨rfl, rfl, .inl (by simp [LineEnds, Stops])⟩⟩
  | case6 rest => exact ⟨[], .nil, .inl ⟨rfl, rfl⟩⟩
  | case7 c rest last more same_line inside ih =>
    have no_escape : c ≠ '\\' := by
      rintro rfl
      cases rest with
      | nil => exact last rfl rfl
      | cons d rest => exact more d rest rfl rfl
    obtain ⟨body, quoted, closed | open_⟩ := ih
    · exact ⟨c :: body, .plain same_line no_escape inside quoted, .inl ⟨closed.1, by simp [closed.2]⟩⟩
    · exact ⟨c :: body, .plain same_line no_escape inside quoted, .inr ⟨open_.1, by simp [open_.2.1], open_.2.2⟩⟩

/-! ## Block comments -/

/-- No star here has a slash right behind it, nor has the star that was `starred` just before. -/
def Unclosed (starred : Bool) : List Char → Prop
  | [] => True
  | c :: rest => ¬ (starred = true ∧ c = '/') ∧ Unclosed (c = '*') rest

/-- A text without an end of comment is unclosed also with a star behind it. -/
theorem unclosed_star {starred : Bool} {body : List Char} (first : starred = true → body.head? ≠ some '/')
    (inside : ¬ ['*', '/'] <:+: body) : Unclosed starred (body ++ ['*']) := by
  induction body generalizing starred with
  | nil => exact ⟨by simp, trivial⟩
  | cons c body ih =>
    refine ⟨fun closed => first closed.1 (by rw [closed.2]; rfl), ih (fun star slash => inside ?_) fun more => ?_⟩
    · obtain ⟨rest, rfl⟩ := List.head?_eq_some_iff.mp slash
      exact ⟨[], rest, by rw [of_decide_eq_true star]; rfl⟩
    · exact inside (List.infix_cons more)

/-- Whether there is a star at the end. -/
def starredAfter (starred : Bool) (body : List Char) : Bool := body.foldl (fun _ c => c = '*') starred

/-- A block comment ends in front of a slash behind a star, or with the text. -/
def BlockEnds (starred : Bool) (rest : List Char) : Prop := ∀ c ∈ rest.head?, c = '/' ∧ starred = true

theorem cutBlock_eq {starred : Bool} {body rest : List Char} (inside : Unclosed starred body)
    (stop : BlockEnds (starredAfter starred body) rest) :
    cutBlock starred (body ++ rest) = ⟨.unknown, body, rest⟩ := by
  induction body generalizing starred with
  | nil =>
    cases rest with
    | nil => rfl
    | cons c rest =>
      obtain ⟨rfl, here⟩ := stop c rfl
      rw [List.nil_append, cutBlock, show starred = true from here]
      rfl
  | cons c body ih =>
    have goes_on : ¬ (starred && decide (c = '/')) = true := by simpa using inside.1
    rw [List.cons_append, cutBlock, if_neg goes_on, ih inside.2 stop]
    rfl

theorem cutBlock_spec (starred : Bool) (text : List Char) :
    (cutBlock starred text).kind = .unknown ∧ Unclosed starred (cutBlock starred text).taken ∧
      BlockEnds (starredAfter starred (cutBlock starred text).taken) (cutBlock starred text).rest := by
  fun_induction cutBlock starred text with
  | case1 => exact ⟨rfl, trivial, by simp [BlockEnds]⟩
  | case2 starred c rest closes =>
    simp only [Bool.and_eq_true, decide_eq_true_eq] at closes
    exact ⟨rfl, trivial, by simp [BlockEnds, starredAfter, closes]⟩
  | case3 starred c rest goes_on ih =>
    obtain ⟨kind, inside, stop⟩ := ih
    exact ⟨kind, ⟨by simpa using goes_on, inside⟩, stop⟩

/-! ## All forms -/

/-- The kind of a character that is a token by itself. -/
def symbolKind (c : Char) : TokenKind :=
  if c = '{' then .openBrace
  else if c = '}' then .closeBrace
  else if c = ';' then .semicolon
  else if c = '.' then .dot
  else .punctuation

/-- A token that begins with `c`: its kind, what it takes behind `c`, and what must hold of the rest for it to end. -/
inductive Form (c : Char) : TokenKind → List Char → (List Char → Prop) → Prop where
  | whitespace {taken : List Char} (space : isSpace c = true) (inside : ∀ d ∈ taken, isSpace d = true) :
      Form c .whitespace taken (Stops isSpace)
  | word {taken : List Char} (start : isWordStart c = true) (inside : ∀ d ∈ taken, isWordPart d = true) :
      Form c (.ofWord (String.ofList (c :: taken))) taken (Stops isWordPart)
  | number {taken : List Char} (digit : isDigit c = true) (inside : ∀ d ∈ taken, isWordPart d = true) :
      Form c .literal taken (Stops isWordPart)
  | quoted {body : List Char} (quote : c = '"' ∨ c = '\'') (inside : Quoted c body) :
      Form c .literal (body ++ [c]) fun _ => True
  | openQuote {body : List Char} (quote : c = '"' ∨ c = '\'') (inside : Quoted c body) :
      Form c .unknown body QuoteEnds
  | comment {line : List Char} (slash : c = '/') (inside : ∀ d ∈ line, d ≠ '\n') :
      Form c .comment ('/' :: line) LineEnds
  | block {body : List Char} (slash : c = '/') (inside : Unclosed false body) :
      Form c .unknown ('*' :: body) (BlockEnds (starredAfter false body))
  | slash (slash : c = '/') : Form c .punctuation [] (Stops fun d => d = '/' || d = '*')
  | symbol (space : isSpace c = false) (start : isWordStart c = false) (digit : isDigit c = false)
      (quote : ¬ (c = '"' ∨ c = '\'')) (slash : c ≠ '/') : Form c (symbolKind c) [] fun _ => True

variable {c : Char} {kind : TokenKind} {taken rest : List Char} {stop : List Char → Prop}

theorem form_cutSlash (text : List Char) :
    ∃ stop, Form '/' (cutSlash text).kind (cutSlash text).taken stop ∧ stop (cutSlash text).rest := by
  unfold cutSlash
  split
  · next line =>
    obtain ⟨inside, stop⟩ := cutWhile_spec .comment (· ≠ '\n') line
    exact ⟨_, .comment rfl (fun d hd => by simpa using inside d hd), stop⟩
  · next body =>
    obtain ⟨kind, inside, stop⟩ := cutBlock_spec false body
    refine ⟨_, ?_, stop⟩
    rw [Cut.cons_kind, kind]
    exact .block rfl inside
  · next no_line no_block =>
    refine ⟨_, .slash rfl, fun d hd => ?_⟩
    cases text with
    | nil => cases hd
    | cons e text =>
      cases hd
      simp only [Bool.or_eq_false_iff, decide_eq_false_iff_not]
      exact ⟨fun h => no_line text (by rw [h]), fun h => no_block text (by rw [h])⟩

theorem form_cut (c : Char) (text : List Char) :
    ∃ stop, Form c (cut c text).kind (cut c text).taken stop ∧ stop (cut c text).rest := by
  unfold cut
  split
  · next space =>
    obtain ⟨inside, stop⟩ := cutWhile_spec .whitespace isSpace text
    exact ⟨_, .whitespace space inside, stop⟩
  split
  · next start =>
    obtain ⟨inside, stop⟩ := cutWhile_spec .ident isWordPart text
    exact ⟨_, .word start inside, stop⟩
  split
  · next digit =>
    obtain ⟨inside, stop⟩ := cutWhile_spec .literal isWordPart text
    exact ⟨_, .number digit inside, stop⟩
  split
  · next quote =>
    have quote : c = '"' ∨ c = '\'' := by simpa using quote
    obtain ⟨body, inside, ⟨kind, taken⟩ | ⟨kind, taken, stop⟩⟩ := cutQuoted_spec c text
    · rw [kind, taken]
      exact ⟨_, .quoted quote inside, trivial⟩
    · rw [kind, taken]
      exact ⟨_, .openQuote quote inside, stop⟩
  split
  · next slash =>
    subst slash
    exact form_cutSlash text
  · next space start digit quote slash =>
    have symbol : Form c (symbolKind c) [] fun _ => True :=
      .symbol (by simpa using space) (by simpa using start) (by simpa using digit) (by simpa using quote) slash
    refine ⟨fun _ => True, ?_, ?_⟩
    · unfold symbolKind at symbol
      split_ifs at symbol ⊢ <;> exact symbol
    · trivial

/-! ## Every form is cut -/

theorem isWordPart_of_isSpace (h : isSpace c = true) : isWordPart c = false := by
  simp only [isSpace, Bool.or_eq_true, decide_eq_true_eq] at h
  rcases h with (((rfl | rfl) | rfl) | rfl) | rfl <;> decide

theorem isSpace_of_isWordPart (h : isWordPart c = true) : isSpace c = false := by
  rw [← Bool.not_eq_true]
  intro space
  rw [isWordPart_of_isSpace space] at h
  cases h

theorem isWordStart_of_isDigit (h : isDigit c = true) : isWordStart c = false := by
  simp only [isDigit, isWordStart, Bool.and_eq_true, decide_eq_true_eq, Bool.or_eq_false_iff, Bool.and_eq_false_iff,
    decide_eq_false_iff_not, Char.le_def, UInt32.le_iff_toNat_le] at h ⊢
  refine ⟨⟨.inl fun upper => ?_, .inl fun lower => ?_⟩, ?_⟩
  · exact absurd (Nat.le_trans upper h.2) (by decide)
  · exact absurd (Nat.le_trans lower h.2) (by decide)
  · rintro rfl
    exact absurd h.2 (by decide)

theorem cut_quote (quote : c = '"' ∨ c = '\'') (text : List Char) : cut c text = cutQuoted c text := by
  rcases quote with rfl | rfl <;> rfl

theorem cut_slash (text : List Char) : cut '/' text = cutSlash text := rfl

theorem cut_of_form (form : Form c kind taken stop) (ends : stop rest) :
    cut c (taken ++ rest) = ⟨kind, taken, rest⟩ := by
  cases form with
  | whitespace space inside => rw [cut, if_pos space, cutWhile_eq inside ends]
  | word start inside =>
    have space : isSpace c = false := isSpace_of_isWordPart (by simp [isWordPart, start])
    rw [cut, if_neg (by simp [space]), if_pos start, cutWhile_eq inside ends]
  | number digit inside =>
    have space : isSpace c = false := isSpace_of_isWordPart (by simp [isWordPart, digit])
    rw [cut, if_neg (by simp [space]), if_neg (by simp [isWordStart_of_isDigit digit]), if_pos digit,
      cutWhile_eq inside ends]
  | quoted quote inside =>
    have other : c ≠ '\n' ∧ c ≠ '\\' := by rcases quote with rfl | rfl <;> decide
    rw [cut_quote quote, List.append_assoc, List.singleton_append, cutQuoted_closed other.1 other.2 inside]
  | openQuote quote inside => rw [cut_quote quote, cutQuoted_open inside ends]
  | comment slash inside =>
    subst slash
    rw [cut_slash, List.cons_append, cutSlash, cutWhile_eq (by simpa using inside) ends]
    rfl
  | block slash inside =>
    subst slash
    rw [cut_slash, List.cons_append, cutSlash, cutBlock_eq inside ends]
    rfl
  | slash slash =>
    subst slash
    rw [cut_slash, List.nil_append]
    cases rest with
    | nil => rfl
    | cons d rest =>
      have other := ends d rfl
      simp only [Bool.or_eq_false_iff, decide_eq_false_iff_not] at other
      unfold cutSlash
      split
      · next same => exact absurd (List.cons.inj same).1 other.1
      · next same => exact absurd (List.cons.inj same).1 other.2
      · rfl
  | symbol space start digit quote slash =>
    rw [cut, if_neg (by simp [space]), if_neg (by simp [start]), if_neg (by simp [digit]),
      if_neg (by simpa using quote), if_neg slash]
    unfold symbolKind
    split_ifs <;> rfl

end CodeWorkspace.Token
