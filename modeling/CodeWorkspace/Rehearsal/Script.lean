import CodeWorkspace.Toolchain.Outline

/-! A toolchain that documents can direct. A directive stands in a comment whose text begins with `@` and
tells the parser to wait, to break down, or to report something; all else is left to the outline toolchain. -/
namespace CodeWorkspace

inductive Directive where
  /-- Waits until a gate is opened. -/
  | hold (gate : String)
  | crash (argument : String)
  | report (diagnostic : Diagnostic)
  deriving DecidableEq, Repr, Inhabited

namespace Directive

/-- The text before and behind the first place where `mark` stands. -/
def cutAt (mark : List Char) : List Char → Option (List Char × List Char)
  | [] => if mark = [] then some ([], []) else none
  | c :: rest =>
    if mark.isPrefixOf (c :: rest) then some ([], (c :: rest).drop mark.length)
    else (cutAt mark rest).map fun (before, behind) => (c :: before, behind)

theorem length_of_cutAt {mark text before behind : List Char} (h : cutAt mark text = some (before, behind)) :
    behind.length + mark.length ≤ text.length := by
  induction text generalizing before with
  | nil =>
    simp only [cutAt] at h
    split at h <;> simp_all
  | cons c rest ih =>
    simp only [cutAt] at h
    split at h
    · next starts =>
      cases h
      have := (List.isPrefixOf_iff_prefix.mp starts).length_le
      simp only [List.length_drop]
      omega
    · obtain ⟨⟨before', behind'⟩, hcut, heq⟩ := Option.map_eq_some_iff.mp h
      cases heq
      have : behind'.length + mark.length ≤ rest.length := ih hcut
      simp only [List.length_cons]
      omega

/-- What stands before the first blank and what stands behind it. -/
def word (text : List Char) : List Char × List Char :=
  match cutAt [' '] text with
  | none => (text, [])
  | some cut => cut

def severity? : List Char → Option Severity
  | ['e', 'r', 'r', 'o', 'r'] => some .error
  | ['w', 'a', 'r', 'n', 'i', 'n', 'g'] => some .warning
  | ['i', 'n', 'f', 'o'] => some .info
  | ['h', 'i', 'n', 't'] => some .hint
  | _ => none

/-- Severity, code and message. A dash stands for no code. -/
def report? (argument : List Char) : Option Directive :=
  let (severity, rest) := word argument
  let (code, message) := word rest
  (severity? severity).map fun severity => .report {
    severity := severity
    message := String.ofList message
    code := if code = ['-'] then none else some (String.ofList code) }

def ofMarker (text : List Char) : Option Directive :=
  let (verb, argument) := word text
  if verb = "hold".toList then some (.hold (String.ofList argument))
  else if verb = "panic".toList then some (.crash (String.ofList argument))
  else if verb = "diag".toList then report? argument
  else none

/-- The texts between `/*@` and the `*/` behind it, up to one that is never closed. -/
def markers (text : List Char) : List (List Char) :=
  match _opened : cutAt ['/', '*', '@'] text with
  | none => []
  | some (_, body) =>
    match _closed : cutAt ['*', '/'] body with
    | none => []
    | some (marker, rest) => marker :: markers rest
termination_by text.length
decreasing_by
  have := length_of_cutAt _opened
  have := length_of_cutAt _closed
  simp at *
  omega

def ofText (text : String) : List Directive := (markers text.toList).filterMap ofMarker

def isCrash : Directive → Bool
  | .crash _ => true
  | _ => false

def detail? (path : Path) : Directive → Option String
  | .crash "static" => some "static payload"
  | .crash "number" => some "unknown panic"
  | .crash argument => some ("parser blew up on " ++ path.text ++ ": " ++ argument)
  | _ => none

def diagnostic? : Directive → Option Diagnostic
  | .report d => some d
  | _ => none

/-- Whether directives wait for a gate before they get to a breakdown or to their end. -/
def areHeld (opened : List String) (ds : List Directive) : Bool :=
  (ds.takeWhile (!·.isCrash)).any fun
    | .hold gate => !opened.contains gate
    | _ => false

end Directive

/-- Reports of directives come behind those of the parser. Gates say when a parse ends, not how. -/
def Toolchain.scripted : Toolchain where
  name := "scripted"
  parse path text :=
    let directives := Directive.ofText text
    match directives.findSome? (·.detail? path) with
    | some detail => .error detail
    | none =>
      let parsed := Outline.parse path text
      .ok { parsed with diagnostics := parsed.diagnostics ++ directives.filterMap (·.diagnostic?) }
  bind project units references := .ok (Bound.ofUnits project units references)

end CodeWorkspace
