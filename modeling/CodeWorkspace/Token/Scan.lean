import CodeWorkspace.Token.Basic

/-! Cutting a text into tokens. Each family of tokens has a function that says how far it runs behind its
first characters; it returns what belongs to the token and what is left, so that nothing is lost. -/
namespace CodeWorkspace.Token

/-- A token's kind, its characters behind the ones already read, and the rest of the text. -/
structure Cut where
  kind : TokenKind
  taken : List Char
  rest : List Char

def isSpace (c : Char) : Bool := c = ' ' || c = '\t' || c = '\r' || c = '\n' || c = '\x0c'

def isDigit (c : Char) : Bool := '0' ≤ c && c ≤ '9'

def isWordStart (c : Char) : Bool := ('A' ≤ c && c ≤ 'Z') || ('a' ≤ c && c ≤ 'z') || c = '_'

def isWordPart (c : Char) : Bool := isWordStart c || isDigit c

def Cut.cons (c : Char) (r : Cut) : Cut := { r with taken := c :: r.taken }

def cutWhile (kind : TokenKind) (p : Char → Bool) (text : List Char) : Cut :=
  ⟨kind, text.takeWhile p, text.dropWhile p⟩

/-- Behind the opening `quote` of a literal. A backslash takes the next character with it, and only the
same quote closes. A literal never goes past its line: a newline or the end of the text leaves it unknown. -/
def cutQuoted (quote : Char) : List Char → Cut
  | [] => ⟨.unknown, [], []⟩
  | '\\' :: [] => ⟨.unknown, [], ['\\']⟩
  | '\\' :: c :: rest =>
    if c = '\n' then ⟨.unknown, [], '\\' :: c :: rest⟩ else (cutQuoted quote rest).cons c |>.cons '\\'
  | c :: rest =>
    if c = '\n' then ⟨.unknown, [], c :: rest⟩
    else if c = quote then ⟨.literal, [c], rest⟩
    else (cutQuoted quote rest).cons c

/-- Behind the opening of a block comment, `starred` right after a star. It runs to the first run of stars
before a slash, leaves that slash, and counts as unknown whether it was closed or not. -/
def cutBlock (starred : Bool) : List Char → Cut
  | [] => ⟨.unknown, [], []⟩
  | c :: rest =>
    if starred && c = '/' then ⟨.unknown, [], c :: rest⟩ else (cutBlock (c = '*') rest).cons c

def cutSlash : List Char → Cut
  | '/' :: rest => (cutWhile .comment (· ≠ '\n') rest).cons '/'
  | '*' :: rest => (cutBlock false rest).cons '*'
  | rest => ⟨.punctuation, [], rest⟩

/-- Behind the first character of a token. -/
def cut (c : Char) (rest : List Char) : Cut :=
  if isSpace c then cutWhile .whitespace isSpace rest
  else if isWordStart c then
    let word := cutWhile .ident isWordPart rest
    { word with kind := .ofWord (String.ofList (c :: word.taken)) }
  else if isDigit c then cutWhile .literal isWordPart rest
  else if c = '"' || c = '\'' then cutQuoted c rest
  else if c = '/' then cutSlash rest
  else if c = '{' then ⟨.openBrace, [], rest⟩
  else if c = '}' then ⟨.closeBrace, [], rest⟩
  else if c = ';' then ⟨.semicolon, [], rest⟩
  else if c = '.' then ⟨.dot, [], rest⟩
  else ⟨.punctuation, [], rest⟩

@[simp] theorem Cut.cons_taken (c : Char) (r : Cut) : (r.cons c).taken = c :: r.taken := rfl

@[simp] theorem Cut.cons_rest (c : Char) (r : Cut) : (r.cons c).rest = r.rest := rfl

@[simp] theorem Cut.cons_kind (c : Char) (r : Cut) : (r.cons c).kind = r.kind := rfl

theorem cutWhile_split (kind : TokenKind) (p : Char → Bool) (text : List Char) :
    (cutWhile kind p text).taken ++ (cutWhile kind p text).rest = text :=
  List.takeWhile_append_dropWhile

theorem cutQuoted_split (quote : Char) (text : List Char) :
    (cutQuoted quote text).taken ++ (cutQuoted quote text).rest = text := by
  fun_induction cutQuoted quote text <;> simp_all

theorem cutBlock_split (starred : Bool) (text : List Char) :
    (cutBlock starred text).taken ++ (cutBlock starred text).rest = text := by
  fun_induction cutBlock starred text <;> simp_all

theorem cutSlash_split (text : List Char) : (cutSlash text).taken ++ (cutSlash text).rest = text := by
  unfold cutSlash
  split
  · simp [cutWhile_split]
  · simp [cutBlock_split]
  · rfl

theorem cut_split (c : Char) (text : List Char) : (cut c text).taken ++ (cut c text).rest = text := by
  unfold cut
  repeat' split
  all_goals first
    | exact cutWhile_split ..
    | exact cutQuoted_split ..
    | exact cutSlash_split ..
    | rfl

theorem length_cut_rest (c : Char) (text : List Char) : (cut c text).rest.length ≤ text.length := by
  have := congrArg List.length (cut_split c text)
  simp only [List.length_append] at this
  omega

/-- The tokens of a text that begins `offset` bytes into its document, and where they are, however far in. -/
def lexFrom (offset : Nat) : List Char → List Token
  | [] => []
  | c :: text =>
    let stop := offset + byteLength (c :: (cut c text).taken)
    ⟨(cut c text).kind, String.ofList (c :: (cut c text).taken), ⟨offset, stop⟩⟩ ::
      lexFrom stop (cut c text).rest
termination_by text => text.length
decreasing_by
  have := length_cut_rest c text
  simp only [List.length_cons]; omega

/-- The tokens of a document, trivia included, in order. -/
def lex (text : String) : List Token := lexFrom 0 text.toList

/-- A token as it is kept, with words for offsets. -/
def saturated (t : Token) : Token :=
  { t with range := ⟨saturateOffset t.range.start, saturateOffset t.range.stop⟩ }

/-- The tokens of a document as they are kept. -/
def scan (text : String) : List Token := (lex text).map (·.saturated)

end CodeWorkspace.Token
