import CodeWorkspace.Manifest.Text

/-! The tokens of a JSON text. Cutting stops at the first place that is no token. -/
namespace CodeWorkspace.Manifest

/-- Only texts have a value that anything depends on; one with a stray surrogate has none. -/
inductive Token where
  | openBracket
  | closeBracket
  | openBrace
  | closeBrace
  | comma
  | colon
  | null
  | boolean
  | number
  | text (value : Option String)
  | malformed
  deriving DecidableEq, Repr

def isBlank (c : Char) : Bool := c = ' ' || c = '\n' || c = '\t' || c = '\r'

def isDigit (c : Char) : Bool := '0' ≤ c && c ≤ '9'

/-- Past at least one digit. -/
def digits? : List Char → Option (List Char)
  | [] => none
  | c :: rest => if isDigit c then some (rest.dropWhile isDigit) else none

def exponent? : List Char → Option (List Char)
  | [] => some []
  | c :: rest =>
    if c = 'e' ∨ c = 'E' then
      match rest with
      | s :: rest' => if s = '+' ∨ s = '-' then digits? rest' else digits? rest
      | [] => none
    else some (c :: rest)

def fraction? : List Char → Option (List Char)
  | '.' :: rest => (digits? rest).bind exponent?
  | rest => exponent? rest

/-- Past a number without its sign. A leading zero stands alone. -/
def number? : List Char → Option (List Char)
  | [] => none
  | c :: rest =>
    if c = '0' then fraction? rest
    else if isDigit c then fraction? (rest.dropWhile isDigit)
    else none

def symbol? : Char → Option Token
  | '[' => some .openBracket
  | ']' => some .closeBracket
  | '{' => some .openBrace
  | '}' => some .closeBrace
  | ',' => some .comma
  | ':' => some .colon
  | _ => none

def word? : List Char → Option (Token × List Char)
  | 'n' :: 'u' :: 'l' :: 'l' :: rest => some (.null, rest)
  | 't' :: 'r' :: 'u' :: 'e' :: rest => some (.boolean, rest)
  | 'f' :: 'a' :: 'l' :: 's' :: 'e' :: rest => some (.boolean, rest)
  | _ => none

/-- The token that starts with `c`, and the rest of the text behind it. -/
def cut? (c : Char) (rest : List Char) : Option (Token × List Char) :=
  match symbol? c with
  | some t => some (t, rest)
  | none =>
    if c = '"' then (pieces rest).map fun (ps, rest) => (.text ((assemble ps).map String.ofList), rest)
    else if c = '-' then (number? rest).map fun rest => (.number, rest)
    else if isDigit c then (number? (c :: rest)).map fun rest => (.number, rest)
    else word? (c :: rest)

theorem length_dropWhile_le (p : Char → Bool) (cs : List Char) :
    (cs.dropWhile p).length ≤ cs.length := (List.dropWhile_suffix p).length_le

theorem length_of_digits? {text rest : List Char} (h : digits? text = some rest) :
    rest.length < text.length := by
  have := length_dropWhile_le isDigit
  unfold digits? at h
  grind

theorem length_of_exponent? {text rest : List Char} (h : exponent? text = some rest) :
    rest.length ≤ text.length := by
  unfold exponent? at h
  have := @length_of_digits?
  grind

theorem length_of_fraction? {text rest : List Char} (h : fraction? text = some rest) :
    rest.length ≤ text.length := by
  unfold fraction? at h
  split at h
  · obtain ⟨mid, hd, he⟩ := Option.bind_eq_some_iff.mp h
    have := length_of_digits? hd
    have := length_of_exponent? he
    simp only [List.length_cons]; omega
  · exact length_of_exponent? h

theorem length_of_number? {text rest : List Char} (h : number? text = some rest) :
    rest.length < text.length := by
  unfold number? at h
  have := @length_of_fraction?
  have := length_dropWhile_le isDigit
  grind

theorem length_of_word? {text rest : List Char} {t : Token} (h : word? text = some (t, rest)) :
    rest.length < text.length := by
  unfold word? at h
  grind

theorem length_of_cut? {c : Char} {text rest : List Char} {t : Token} (h : cut? c text = some (t, rest)) :
    rest.length ≤ text.length := by
  unfold cut? at h
  split at h
  · simp_all
  · split at h
    · obtain ⟨⟨ps, rest'⟩, hp, heq⟩ := Option.map_eq_some_iff.mp h
      cases heq
      exact Nat.le_of_lt (length_of_pieces hp)
    · split at h
      · obtain ⟨rest', hn, heq⟩ := Option.map_eq_some_iff.mp h
        cases heq
        exact Nat.le_of_lt (length_of_number? hn)
      · split at h
        · obtain ⟨rest', hn, heq⟩ := Option.map_eq_some_iff.mp h
          cases heq
          exact Nat.le_of_lt_succ (length_of_number? hn)
        · exact Nat.le_of_lt_succ (length_of_word? h)

def tokens : List Char → List Token
  | [] => []
  | c :: text =>
    if isBlank c then tokens text
    else match _h : cut? c text with
      | none => [.malformed]
      | some (t, rest) => t :: tokens rest
termination_by text => text.length
decreasing_by
  · simp
  · have := length_of_cut? _h; simp only [List.length_cons]; omega

end CodeWorkspace.Manifest
