import CodeWorkspace.Proofs.Outline.Depth

/-! Braces matched as they come, whatever stands between them. Where no closing brace is stray, none stays open and
none is opened too deep, they come in pairs. -/
namespace CodeWorkspace.Outline

/-- The opening braces that wait for a closing one, the innermost first. -/
def pendingAfter (pending : List Token) (t : Token) : List Token :=
  match t.kind with
  | .openBrace => t :: pending
  | .closeBrace => pending.tail
  | _ => pending

/-- The opening braces that none of these tokens closes, the innermost first. -/
def pendingBraces (tokens : List Token) : List Token := tokens.foldl pendingAfter []

/-- Each token with the number of braces that are open in front of it. -/
def withDepth (depth : Nat) : List Token → List (Nat × Token)
  | [] => []
  | t :: rest => (depth, t) :: withDepth (depthAfter depth t) rest

/-- The tokens of one kind with so many braces open in front of them. -/
def tokensAt (kind : TokenKind) (depth : Nat) (tokens : List Token) : List Token :=
  ((withDepth 0 tokens).filter fun x => x.2.kind = kind ∧ x.1 = depth).map (·.2)

/-- Braces in pairs, with at most `limit` pairs around one another. -/
inductive Nested : Nat → List Token → Prop where
  | nil {limit : Nat} : Nested limit []
  | other {limit : Nat} {t : Token} {rest : List Token} (notOpen : t.kind ≠ .openBrace)
      (notClose : t.kind ≠ .closeBrace) (behind : Nested limit rest) : Nested limit (t :: rest)
  | block {limit : Nat} {opening closing : Token} {inside rest : List Token}
      (opens : opening.kind = .openBrace) (closes : closing.kind = .closeBrace)
      (within : Nested limit inside) (behind : Nested (limit + 1) rest) :
      Nested (limit + 1) (opening :: inside ++ closing :: rest)

section Matching

variable {t : Token} {tokens pending : List Token} {depth limit : Nat}

theorem pendingAfter_open (pending : List Token) (kind : t.kind = .openBrace) :
    pendingAfter pending t = t :: pending := by
  simp [pendingAfter, kind]

theorem pendingAfter_close (pending : List Token) (kind : t.kind = .closeBrace) :
    pendingAfter pending t = pending.tail := by
  simp [pendingAfter, kind]

theorem pendingAfter_other (pending : List Token) (notOpen : t.kind ≠ .openBrace)
    (notClose : t.kind ≠ .closeBrace) : pendingAfter pending t = pending := by
  unfold pendingAfter
  split
  · next kind => exact absurd kind notOpen
  · next kind => exact absurd kind notClose
  · rfl

theorem length_pendingAfter (pending : List Token) (t : Token) :
    (pendingAfter pending t).length = depthAfter pending.length t := by
  by_cases opens : t.kind = .openBrace
  · rw [pendingAfter_open pending opens, depthAfter_open _ opens, List.length_cons]
  · by_cases closes : t.kind = .closeBrace
    · rw [pendingAfter_close pending closes, depthAfter_close _ closes, List.length_tail]
    · rw [pendingAfter_other pending opens closes, depthAfter_other _ opens closes]

theorem length_foldl_pendingAfter (pending tokens : List Token) :
    (tokens.foldl pendingAfter pending).length = tokens.foldl depthAfter pending.length := by
  induction tokens generalizing pending with
  | nil => rfl
  | cons t rest ih => rw [List.foldl_cons, List.foldl_cons, ih, length_pendingAfter]

theorem withDepth_append (depth : Nat) (tokens more : List Token) :
    withDepth depth (tokens ++ more) =
      withDepth depth tokens ++ withDepth (tokens.foldl depthAfter depth) more := by
  induction tokens generalizing depth with
  | nil => rfl
  | cons t rest ih => simp only [List.cons_append, withDepth, ih, List.foldl_cons]

/-! ### Pairs of braces -/

namespace Nested

theorem foldl_pendingAfter (h : Nested limit tokens) (pending : List Token) :
    tokens.foldl pendingAfter pending = pending := by
  induction h generalizing pending with
  | nil => rfl
  | other notOpen notClose _ ih => rw [List.foldl_cons, pendingAfter_other pending notOpen notClose, ih]
  | @block _ opening closing _ _ opens closes _ _ ih ih' =>
    rw [List.foldl_append, List.foldl_cons, List.foldl_cons, pendingAfter_open pending opens, ih,
      pendingAfter_close _ closes, List.tail_cons, ih']

theorem foldl_depthAfter (h : Nested limit tokens) (depth : Nat) : tokens.foldl depthAfter depth = depth := by
  have length := length_foldl_pendingAfter (List.replicate depth default) tokens
  rwa [h.foldl_pendingAfter, List.length_replicate, eq_comm] at length

/-- Within pairs no brace is closed that was open before, and none is opened below the limit. -/
theorem between (h : Nested limit tokens) (depth : Nat) : ∀ x ∈ withDepth depth tokens,
    (x.2.kind = .closeBrace → depth < x.1) ∧ (x.2.kind = .openBrace → x.1 < depth + limit) := by
  induction h generalizing depth with
  | nil => simp [withDepth]
  | other notOpen notClose _ ih =>
    rw [withDepth, depthAfter_other depth notOpen notClose, List.forall_mem_cons]
    exact ⟨⟨fun kind => absurd kind notClose, fun kind => absurd kind notOpen⟩, ih depth⟩
  | @block limit opening closing inside rest opens closes within _ ih ih' =>
    intro x mem
    simp only [List.cons_append, withDepth, withDepth_append, depthAfter_open depth opens,
      within.foldl_depthAfter, depthAfter_close _ closes, Nat.add_sub_cancel, List.mem_cons,
      List.mem_append] at mem
    rcases mem with rfl | mem | rfl | mem
    · exact ⟨fun kind => by simp [opens] at kind, fun _ => by simp only; omega⟩
    · have := ih (depth + 1) x mem
      exact ⟨fun kind => by have := this.1 kind; omega, fun kind => by have := this.2 kind; omega⟩
    · exact ⟨fun _ => by simp only; omega, fun kind => by simp [closes] at kind⟩
    · exact ih' depth x mem

end Nested

/-- With `depth` braces open: each is closed in its turn, and all else is in pairs. -/
def Closing (limit : Nat) : Nat → List Token → Prop
  | 0, tokens => Nested limit tokens
  | depth + 1, tokens => ∃ inside closing rest, tokens = inside ++ closing :: rest ∧
      closing.kind = .closeBrace ∧ Nested (limit - (depth + 1)) inside ∧ Closing limit depth rest

theorem Closing.prepend {front : List Token} (h : Closing limit depth tokens)
    (nested : ∀ behind, Nested (limit - depth) behind → Nested (limit - depth) (front ++ behind)) :
    Closing limit depth (front ++ tokens) := by
  cases depth with
  | zero => exact nested tokens h
  | succ depth =>
    obtain ⟨inside, closing, rest, rfl, closes, within, behind⟩ := h
    exact ⟨front ++ inside, closing, rest, by simp, closes, nested inside within, behind⟩

/-- Without a stray closing brace and without an opening one at the limit, braces are in pairs if they are all
closed in the end. -/
theorem closing_of_quiet (le : depth ≤ limit)
    (quiet : ∀ x ∈ withDepth depth tokens,
      ¬(x.2.kind = .closeBrace ∧ x.1 = 0) ∧ ¬(x.2.kind = .openBrace ∧ x.1 = limit))
    (ends : tokens.foldl depthAfter depth = 0) : Closing limit depth tokens := by
  induction tokens generalizing depth with
  | nil =>
    obtain rfl : depth = 0 := ends
    exact .nil
  | cons t rest ih =>
    rw [withDepth, List.forall_mem_cons] at quiet
    obtain ⟨⟨notStray, notDeep⟩, quiet⟩ := quiet
    rw [List.foldl_cons] at ends
    by_cases opens : t.kind = .openBrace
    · rw [depthAfter_open depth opens] at quiet ends
      have lt : depth < limit := Nat.lt_of_le_of_ne le fun same => notDeep ⟨opens, same⟩
      obtain ⟨inside, closing, rest, rfl, closes, within, behind⟩ := ih lt quiet ends
      have whole : t :: (inside ++ closing :: rest) = (t :: inside ++ [closing]) ++ rest := by simp
      rw [whole]
      apply behind.prepend
      intro others nested
      rw [List.append_assoc, List.singleton_append]
      rw [show limit - depth = limit - (depth + 1) + 1 by omega] at nested ⊢
      exact .block opens closes within nested
    · by_cases closes : t.kind = .closeBrace
      · rw [depthAfter_close depth closes] at quiet ends
        cases depth with
        | zero => exact absurd ⟨closes, rfl⟩ notStray
        | succ depth => exact ⟨[], t, rest, rfl, closes, .nil, ih (Nat.le_of_succ_le le) quiet ends⟩
      · rw [depthAfter_other depth opens closes] at quiet ends
        have behind : Closing limit depth ([t] ++ rest) := by
          apply (ih le quiet ends).prepend
          exact fun others nested => .other opens closes nested
        exact behind

theorem tokensAt_eq_nil {kind : TokenKind} :
    tokensAt kind depth tokens = [] ↔ ∀ x ∈ withDepth 0 tokens, ¬(x.2.kind = kind ∧ x.1 = depth) := by
  rw [tokensAt, List.map_eq_nil_iff, List.filter_eq_nil_iff]
  simp only [decide_eq_true_eq]

theorem nested_iff (limit : Nat) (tokens : List Token) :
    Nested limit tokens ↔
      tokensAt .closeBrace 0 tokens = [] ∧ pendingBraces tokens = [] ∧ tokensAt .openBrace limit tokens = [] := by
  rw [tokensAt_eq_nil, tokensAt_eq_nil]
  constructor
  · intro h
    refine ⟨fun x mem both => ?_, h.foldl_pendingAfter [], fun x mem both => ?_⟩
    · have := (h.between 0 x mem).1 both.1
      omega
    · have := (h.between 0 x mem).2 both.1
      omega
  · rintro ⟨stray, closed, deep⟩
    have ends := length_foldl_pendingAfter [] tokens
    rw [show tokens.foldl pendingAfter [] = [] from closed] at ends
    exact closing_of_quiet (Nat.zero_le limit) (fun x mem => ⟨stray x mem, deep x mem⟩) ends.symm

end Matching

end CodeWorkspace.Outline
