import CodeWorkspace.Manifest.Token
import Mathlib.Tactic.SplitIfs

/-! Printed texts read back. Each character comes out of its escape as it went in, whether it has one of its own, is
given by its number or stands for itself; a printed text is one token, whatever follows it. -/
namespace CodeWorkspace.Manifest

/-! ## Characters -/

/-- The text is read as one piece, which stands for the character. -/
structure Escapes (text : List Char) (p : Piece) (c : Char) : Prop where
  read : ∀ rest, pieces (text ++ rest) = (pieces rest).map fun x => (p :: x.1, x.2)
  stands : ∀ ps, assemble (p :: ps) = (assemble ps).map (c :: ·)

theorem assemble_char (c : Char) (ps : List Piece) : assemble (.char c :: ps) = (assemble ps).map (c :: ·) := by
  rw [assemble]

/-- No control character is half of a surrogate pair. -/
theorem assemble_control {n : Nat} (control : n < 0x20) (ps : List Piece) :
    assemble (.unit n :: ps) = (assemble ps).map (Char.ofNat n :: ·) := by
  have leading : isLeading n = false := by simp [isLeading]; omega
  have trailing : isTrailing n = false := by simp [isTrailing]; omega
  cases ps with
  | nil => simp [assemble, leading, trailing]
  | cons p ps =>
    cases p <;> simp [assemble, leading, trailing]

theorem hexValue?_hexDigit : ∀ n < 16, hexValue? (hexDigit n) = some n := by decide

theorem unit?_hexDigit {n : Nat} (h : n < 256) :
    unit? '0' '0' (hexDigit (n / 16)) (hexDigit (n % 16)) = some n := by
  have zero : hexValue? '0' = some 0 := rfl
  simp only [unit?, zero, hexValue?_hexDigit (n / 16) (by omega), hexValue?_hexDigit (n % 16) (by omega),
    Option.bind_eq_bind, Option.bind_some, Option.pure_def, Option.some.injEq]
  omega

theorem escapes_short {e c : Char} (h : shortEscape? e = some c) : Escapes ['\\', e] (.char c) c where
  read rest := by
    have number : e ≠ 'u' := by
      rintro rfl
      cases h
    rw [List.cons_append, List.singleton_append, pieces]
    · rw [h]
      cases pieces rest <;> rfl
    · exact fun _ _ _ _ _ same _ => number same
  stands := assemble_char c

theorem escapes_control {c : Char} (control : c.toNat < 0x20) :
    Escapes ['\\', 'u', '0', '0', hexDigit (c.toNat / 16), hexDigit (c.toNat % 16)] (.unit c.toNat) c where
  read rest := by
    simp only [List.cons_append, List.nil_append]
    rw [pieces, unit?_hexDigit (by omega)]
    cases pieces rest <;> rfl
  stands ps := by rw [assemble_control control, Char.ofNat_toNat]

theorem escapes_self {c : Char} (quote : c ≠ '"') (backslash : c ≠ '\\') (visible : ¬ c.toNat < 0x20) :
    Escapes [c] (.char c) c where
  read rest := by
    rw [List.singleton_append, pieces, if_neg visible]
    · cases pieces rest <;> rfl
    · exact quote
    · exact fun _ _ _ _ _ same _ => backslash same
    · exact fun _ _ same _ => backslash same
  stands := assemble_char c

/-- Whatever a character is printed as, it is read as that character. -/
theorem exists_escapes (c : Char) : ∃ p, Escapes (escapeChar c) p c := by
  have code {n : Nat} (same : c.toNat = n) : Char.ofNat n = c := same ▸ Char.ofNat_toNat c
  unfold escapeChar
  -- One case for each branch of the printer, in its order.
  split_ifs with quote backslash backspace tab line page back control
  · exact ⟨_, escapes_short (by rw [quote]; rfl)⟩
  · exact ⟨_, escapes_short (by rw [backslash]; rfl)⟩
  · exact ⟨_, escapes_short (e := 'b') (congrArg some (code backspace))⟩
  · exact ⟨_, escapes_short (by rw [tab]; rfl)⟩
  · exact ⟨_, escapes_short (by rw [line]; rfl)⟩
  · exact ⟨_, escapes_short (e := 'f') (congrArg some (code page))⟩
  · exact ⟨_, escapes_short (by rw [back]; rfl)⟩
  · exact ⟨_, escapes_control control⟩
  · exact ⟨_, escapes_self quote backslash control⟩

theorem exists_pieces (cs rest : List Char) :
    ∃ ps, pieces (cs.flatMap escapeChar ++ '"' :: rest) = some (ps, rest) ∧ assemble ps = some cs := by
  induction cs with
  | nil => exact ⟨[], by rw [List.flatMap_nil, List.nil_append, pieces], by rw [assemble]⟩
  | cons c cs ih =>
    obtain ⟨ps, read, stands⟩ := ih
    obtain ⟨p, escapes⟩ := exists_escapes c
    refine ⟨p :: ps, ?_, ?_⟩
    · rw [List.flatMap_cons, List.append_assoc, escapes.read, read, Option.map_some]
    · rw [escapes.stands, stands, Option.map_some]

/-! ## Tokens -/

theorem tokens_blank {c : Char} (blank : isBlank c = true) (text : List Char) :
    tokens (c :: text) = tokens text := by
  rw [tokens, if_pos blank]

theorem tokens_blanks {blanks : List Char} (blank : ∀ c ∈ blanks, isBlank c = true) (text : List Char) :
    tokens (blanks ++ text) = tokens text := by
  induction blanks with
  | nil => rfl
  | cons c blanks ih =>
    rw [List.forall_mem_cons] at blank
    rw [List.cons_append, tokens_blank blank.1, ih blank.2]

theorem tokens_cut {c : Char} {text rest : List Char} {t : Token} (blank : isBlank c = false)
    (cut : cut? c text = some (t, rest)) : tokens (c :: text) = t :: tokens rest := by
  rw [tokens, if_neg (Bool.eq_false_iff.mp blank)]
  split
  · next none => cases cut.symm.trans none
  · next same =>
    cases cut.symm.trans same
    rfl

theorem tokens_symbol {c : Char} {t : Token} (blank : isBlank c = false) (symbol : symbol? c = some t)
    (text : List Char) : tokens (c :: text) = t :: tokens text :=
  tokens_cut blank (by rw [cut?, symbol])

theorem tokens_null (text : List Char) : tokens ('n' :: 'u' :: 'l' :: 'l' :: text) = .null :: tokens text :=
  tokens_cut rfl rfl

theorem tokens_printText (s : String) (text : List Char) :
    tokens (printText s ++ text) = .text (some s) :: tokens text := by
  obtain ⟨ps, read, stands⟩ := exists_pieces s.toList text
  have cut : cut? '"' (s.toList.flatMap escapeChar ++ '"' :: text) = some (.text (some s), text) := by
    rw [cut?, show symbol? '"' = none from rfl]
    simp only [if_true, read, stands, Option.map_some, String.ofList_toList]
  have spelled : printText s ++ text = '"' :: (s.toList.flatMap escapeChar ++ '"' :: text) := by simp [printText]
  rw [spelled, tokens_cut rfl cut]

end CodeWorkspace.Manifest
