import CodeWorkspace.Manifest.Solution
import CodeWorkspace.Proofs.Manifest.Text
import Mathlib.Data.List.Forall2

/-! Printed values read back. Wherever a value may stand, what is printed for it is read as that value and reading goes
on behind it, in an array, in an object or at the end of the text. -/
namespace CodeWorkspace.Manifest

theorem tokens_newline (depth : Nat) (text : List Char) : tokens (newline depth ++ text) = tokens text := by
  apply tokens_blanks
  unfold newline
  rw [List.forall_mem_cons]
  refine ⟨rfl, fun c mem => ?_⟩
  rw [List.eq_of_mem_replicate mem]
  rfl

/-! ## One value -/

/-- Reading goes on behind a value. -/
def proceed (rest : List Token) : Progress → Value × Bool
  | .more stack expected => build stack expected rest
  | .finished v => (v, !rest.isEmpty)
  | .failed => (.broken, true)

/-- In an object a value needs its key first. -/
def takesValue : List Frame → Bool
  | .object _ :: _ => false
  | _ => true

/-- The text is read as this value, whatever comes before and behind. -/
def Shows (text : List Char) (v : Value) : Prop :=
  ∀ stack expected rest, takesValue stack = true → (expected = .value ∨ expected = .firstItem) →
    build stack expected (tokens (text ++ rest)) = proceed (tokens rest) (complete v stack)

section Build

variable {stack outer : List Frame} {expected expected' : Expected} {t : Token} {v : Value}

theorem build_more {stack' : List Frame} (step : advance stack expected t = .more stack' expected')
    (rest : List Token) : build stack expected (t :: rest) = build stack' expected' rest := by
  rw [build, step]

theorem build_complete (takes : takesValue outer = true) (step : advance stack expected t = complete v outer)
    (rest : List Token) : build stack expected (t :: rest) = proceed rest (complete v outer) := by
  rw [build, step]
  cases outer with
  | nil => rfl
  | cons f outer =>
    cases f with
    | array | member => rfl
    | object => cases takes

/-- A value begins alike at the beginning of an array and anywhere else. -/
theorem advance_eq_valueToken (at_ : expected = .value ∨ expected = .firstItem) (opens : t ≠ .closeBracket) :
    advance stack expected t = valueToken stack t := by
  rcases at_ with rfl | rfl
  · rfl
  · cases t <;> first | rfl | exact absurd rfl opens

end Build

theorem shows_printText (s : String) : Shows (printText s) (.text (some s)) := by
  intro stack expected rest takes at_
  rw [tokens_printText]
  exact build_complete takes (advance_eq_valueToken at_ (by simp)) _

theorem shows_null : Shows ['n', 'u', 'l', 'l'] .null := by
  intro stack expected rest takes at_
  rw [List.cons_append, List.cons_append, List.cons_append, List.singleton_append, tokens_null]
  exact build_complete takes (advance_eq_valueToken at_ (by simp)) _

/-! ## Lists -/

section Lists

variable {α : Type} {print : α → List Char} {depth : Nat}

/-- The items behind the first one. -/
theorem build_items {as : List α} {vs : List Value} (items : List.Forall₂ (fun a v => Shows (print a) v) as vs)
    (before : List Value) (outer : List Frame) (rest : List Char) :
    build (.array before :: outer) .next
        (tokens (as.flatMap (fun a => [','] ++ newline depth ++ print a) ++ rest)) =
      build (.array (vs.reverse ++ before) :: outer) .next (tokens rest) := by
  induction items generalizing before with
  | nil => rfl
  | @cons a v as vs shows _ ih =>
    have spelled : (a :: as).flatMap (fun a => [','] ++ newline depth ++ print a) ++ rest =
        ',' :: (newline depth ++
          (print a ++ (as.flatMap (fun a => [','] ++ newline depth ++ print a) ++ rest))) := by
      simp
    rw [spelled, tokens_symbol rfl rfl, build_more rfl, tokens_newline, shows _ _ _ rfl (.inl rfl), complete, proceed,
      ih, List.reverse_cons, List.append_assoc, List.singleton_append]

theorem shows_printList {as : List α} {vs : List Value}
    (items : List.Forall₂ (fun a v => Shows (print a) v) as vs) :
    Shows (printList depth print as) (.array vs true) := by
  intro stack expected rest takes at_
  have opens : advance stack expected .openBracket = valueToken stack .openBracket :=
    advance_eq_valueToken at_ (by simp)
  cases items with
  | nil =>
    have spelled : printList depth print [] ++ rest = '[' :: ']' :: rest := rfl
    rw [spelled, tokens_symbol rfl rfl, tokens_symbol rfl rfl, build_more opens]
    exact build_complete takes rfl _
  | @cons a v as vs shows items =>
    -- The first item stands where the array might have ended.
    have spelled : printList depth print (a :: as) ++ rest =
        '[' :: (newline (depth + 1) ++ (print a ++
          (as.flatMap (fun a => [','] ++ newline (depth + 1) ++ print a) ++ (newline depth ++ ']' :: rest)))) := by
      simp [printList]
    rw [spelled, tokens_symbol rfl rfl, build_more opens, tokens_newline, shows _ _ _ rfl (.inr rfl), complete, proceed,
      build_items items, tokens_newline, tokens_symbol rfl rfl]
    refine build_complete takes ?_ _
    simp [advance]

end Lists

/-! ## Objects -/

/-- The text is read as this member of whatever object it stands in. -/
def ShowsMember (text : List Char) (m : Option String × Value) : Prop :=
  ∀ before outer expected rest, (expected = .firstKey ∨ expected = .key) →
    build (.object before :: outer) expected (tokens (text ++ rest)) =
      build (.object (m :: before) :: outer) .next (tokens rest)

theorem showsMember_printMember (depth : Nat) (key : String) {text : List Char} {v : Value} (shows : Shows text v) :
    ShowsMember (printMember depth key text) (some key, v) := by
  intro before outer expected rest at_
  have spelled : printMember depth key text ++ rest =
      newline depth ++ (printText key ++ (':' :: ' ' :: (text ++ rest))) := by
    simp [printMember]
  have keyed : advance (.object before :: outer) expected (.text (some key)) =
      .more (.member before (some key) :: outer) .colon := by
    rcases at_ with rfl | rfl <;> rfl
  rw [spelled, tokens_newline, tokens_printText, build_more keyed, tokens_symbol rfl rfl, build_more rfl,
    tokens_blank rfl, shows _ _ _ rfl (.inl rfl), complete, proceed]

/-- The members behind the first one. -/
theorem build_members {texts : List (List Char)} {ms : List (Option String × Value)}
    (members : List.Forall₂ ShowsMember texts ms) (before : List (Option String × Value)) (outer : List Frame)
    (rest : List Char) :
    build (.object before :: outer) .next (tokens (texts.flatMap ([','] ++ ·) ++ rest)) =
      build (.object (ms.reverse ++ before) :: outer) .next (tokens rest) := by
  induction members generalizing before with
  | nil => rfl
  | @cons text m texts ms shows _ ih =>
    have spelled : (text :: texts).flatMap ([','] ++ ·) ++ rest =
        ',' :: (text ++ (texts.flatMap ([','] ++ ·) ++ rest)) := by
      simp
    rw [spelled, tokens_symbol rfl rfl, build_more rfl, shows _ _ _ _ (.inr rfl), ih, List.reverse_cons,
      List.append_assoc, List.singleton_append]

theorem shows_object (depth : Nat) {text : List Char} {m : Option String × Value} {texts : List (List Char)}
    {ms : List (Option String × Value)} (first : ShowsMember text m) (members : List.Forall₂ ShowsMember texts ms) :
    Shows (['{'] ++ text ++ texts.flatMap ([','] ++ ·) ++ newline depth ++ ['}']) (.object (m :: ms) true) := by
  intro stack expected rest takes at_
  have opens : advance stack expected .openBrace = valueToken stack .openBrace :=
    advance_eq_valueToken at_ (by simp)
  have spelled : ['{'] ++ text ++ texts.flatMap ([','] ++ ·) ++ newline depth ++ ['}'] ++ rest =
      '{' :: (text ++ (texts.flatMap ([','] ++ ·) ++ (newline depth ++ '}' :: rest))) := by
    simp
  rw [spelled, tokens_symbol rfl rfl, build_more opens, first _ _ _ _ (.inl rfl), build_members members, tokens_newline,
    tokens_symbol rfl rfl]
  refine build_complete takes ?_ _
  simp [advance]

end CodeWorkspace.Manifest
