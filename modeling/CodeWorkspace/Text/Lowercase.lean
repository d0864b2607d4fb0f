import CodeWorkspace.Text.CaseTable

/-! Lowercase of a text, in which a sigma at the end of a word has a form of its own. -/
namespace CodeWorkspace.Text

def isCased (c : Char) : Bool := casedRanges.contains c.toNat

def isCaseIgnorable (c : Char) : Bool := caseIgnorableRanges.contains c.toNat

/-- Whether a cased character stands first, apart from characters that do not count. -/
def meetsCased (cs : List Char) : Bool :=
  match cs.dropWhile isCaseIgnorable with
  | [] => false
  | c :: _ => isCased c

/-- The lowercase of a character by itself. One capital has a lowercase of two characters. -/
def lowercaseChar (c : Char) : List Char :=
  if c.toNat < 0x80 then [if 'A' ≤ c ∧ c ≤ 'Z' then Char.ofNat (c.toNat + 32) else c]
  else if c.toNat = 0x130 then ['i', Char.ofNat 0x307]
  else match lowercaseRuns.find? (·.covers c.toNat) with
    | none => [c]
    | some r => [Char.ofNat (c.toNat + r.shift).toNat]

/-- A capital sigma ends a word when letters stand before it and none behind. -/
def lowercaseFrom (before : List Char) : List Char → List Char
  | [] => []
  | c :: rest =>
    (if c = 'Σ' then [if meetsCased before && !meetsCased rest then 'ς' else 'σ']
      else lowercaseChar c) ++ lowercaseFrom (c :: before) rest

def lowercase (s : String) : String := String.ofList (lowercaseFrom [] s.toList)

end CodeWorkspace.Text
