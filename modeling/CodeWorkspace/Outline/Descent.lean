import CodeWorkspace.Outline.Parse

/-! Outlines read by descent. The items of a block are a list of their own, read while the list around it waits, and so
are those of a namespace that owns the rest of the document. Fuel is the number of lists that may be open around one
another. A reader comes to the same items and problems without it. -/
namespace CodeWorkspace.Outline

/-- What has been read of these tokens: nodes and problems in their order, and what is left. -/
structure Listing (tokens : List Token) where
  nodes : List Node
  stop : Nat
  problems : List Problem
  /-- Whether the document has an owner by now. -/
  owned : Bool
  rest : List Token
  le : rest.length ≤ tokens.length

namespace Listing

variable {tokens rest : List Token}

def behind (t : Token) (l : Listing rest) : Listing (t :: rest) := { l with le := Nat.le_succ_of_le l.le }

def telling (problems : List Problem) (l : Listing tokens) : Listing tokens :=
  { l with problems := problems ++ l.problems }

def andThen (l : Listing tokens) (more : Listing l.rest) : Listing tokens :=
  { more with
    nodes := l.nodes ++ more.nodes
    problems := l.problems ++ more.problems
    le := Nat.le_trans more.le l.le }

/-- One token, and what is to be told of it. -/
def single (t : Token) (problems : List Problem) (owned : Bool) (rest : List Token) : Listing (t :: rest) :=
  ⟨[], t.range.stop, problems, owned, rest, Nat.le_succ _⟩

/-- A declaration in place of what is in its body. -/
def within (h : Header) (stop : Nat) (l : Listing tokens) : Listing tokens := { l with nodes := [h.node stop l.nodes] }

/-- A declaration without a body, in front of all the tokens. -/
def leaf (h : Header) (owned : Bool) (tokens : List Token) : Listing tokens :=
  ⟨[h.node h.stop []], h.stop, [], owned, tokens, Nat.le_refl _⟩

end Listing

namespace Descent

/-- What reads a list of items: with so many blocks open, the brace of the innermost, and whether there is an owner. -/
abbrev Lists := (depth : Nat) → (brace? : Option ByteRange) → (owned : Bool) → (tokens : List Token) →
  Option (Listing tokens)

section Parts

variable (last : Nat) (inner : Lists) (depth : Nat)

/-- In a block below the limit, with so many others open inside it. -/
def skip (brace : ByteRange) (owned : Bool) (open_ : Nat) : (tokens : List Token) → Listing tokens
  | [] => ⟨[], last, [.unclosed brace], owned, [], Nat.le_refl _⟩
  | t :: rest =>
    match t.kind, open_ with
    | .openBrace, _ => (skip brace owned (open_ + 1) rest).behind t
    | .closeBrace, 0 => .single t [] owned rest
    | .closeBrace, open_ + 1 => (skip brace owned open_ rest).behind t
    | _, _ => (skip brace owned open_ rest).behind t

def block (brace : ByteRange) (owned : Bool) (tokens : List Token) : Option (Listing tokens) :=
  if depth < nestingLimit then inner (depth + 1) (some brace) owned tokens
  else some ((skip last brace owned 0 tokens).telling [.tooDeep brace])

/-- Behind the keyword of a declaration. -/
def header (h : Header) (owned : Bool) : (tokens : List Token) → Option (Listing tokens)
  | [] => some (.leaf h owned [])
  | t :: rest =>
    match t.kind with
    | .openBrace => (block last inner depth t.range owned rest).map fun l => (l.within h l.stop).behind t
    | .semicolon =>
      let h := { h with stop := t.range.stop }
      if h.kind = .namespaceDecl ∧ depth = 0 ∧ owned = false then
        (inner 0 none true rest).map fun l => (l.within h (max h.stop l.stop)).behind t
      else some ((Listing.leaf h owned rest).behind t)
    | .closeBrace => some (.leaf h owned (t :: rest))
    | .keyword _ =>
      if startsWithIdent rest then some (.leaf h owned (t :: rest))
      else (header { h with stop := t.range.stop } owned rest).map (·.behind t)
    | _ => (header { h with stop := t.range.stop } owned rest).map (·.behind t)

/-- The items of one list, to its closing brace if it has one to come, else to the end. -/
def list (brace? : Option ByteRange) (owned : Bool) : (tokens : List Token) → Option (Listing tokens)
  | [] => some ⟨[], last, (brace?.map .unclosed).toList, owned, [], Nat.le_refl _⟩
  | t :: rest =>
    match t.kind with
    | .closeBrace =>
      if brace?.isSome then some (.single t [] owned rest)
      else (list brace? owned rest).map (Listing.single t [.unbalanced t.range] owned rest).andThen
    | .openBrace =>
      (block last inner depth t.range owned rest).bind fun l => (list brace? l.owned l.rest).map (l.behind t).andThen
    | .keyword declares =>
      if startsWithKeyword rest then (list brace? owned rest).map (Listing.single t [] owned rest).andThen
      else
        (header last inner depth ⟨declares, nameOf? rest, t.range.start, t.range.stop⟩ owned rest).bind fun l =>
          let unnamed := if startsWithIdent rest then [] else [.unnamed t]
          (list brace? l.owned l.rest).map ((l.telling unnamed).behind t).andThen
    | _ => (list brace? owned rest).map (Listing.single t [] owned rest).andThen
termination_by tokens => tokens.length
decreasing_by
  all_goals simp only [List.length_cons]
  · omega
  · have := l.le
    omega
  · omega
  · have := l.le
    omega
  · omega

end Parts

/-- Lists of items, so many of which may be open around one another. -/
def items (last : Nat) : Nat → Lists
  | 0 => fun _ _ _ _ => none
  | fuel + 1 => list last (items last fuel)

/-- The outline of a whole document, with so much fuel. -/
def outline (fuel : Nat) (tokens : List Token) : Option (Listing tokens) :=
  items (lastStop tokens) fuel 0 none false tokens

end Descent

end CodeWorkspace.Outline
