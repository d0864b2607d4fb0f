import CodeWorkspace.Path.Basic
import Mathlib.Data.List.Basic

/-! Texts as bytes and back. The UTF-8 form of a text reads as that text, so that a path that is spelled as a text reads
as it is spelled; of bytes that are none, different ones may read alike. -/
namespace CodeWorkspace

namespace Text

variable {b : Begun} {byte : UInt8} {c : Char} {rest : List UInt8}

theorem readLossy_beginning_whole (first : beginning? byte.toNat = some (.whole c)) :
    readLossy none (byte :: rest) = c :: readLossy none rest := by
  simp [readLossy, first, broken]

theorem readLossy_beginning_begun (first : beginning? byte.toNat = some (.begun b)) :
    readLossy none (byte :: rest) = readLossy (some b) rest := by
  simp [readLossy, first, broken]

theorem readLossy_next_whole (next : b.next? byte.toNat = some (.whole c)) :
    readLossy (some b) (byte :: rest) = c :: readLossy none rest := by
  simp [readLossy, next]

theorem readLossy_next_begun {b' : Begun} (next : b.next? byte.toNat = some (.begun b')) :
    readLossy (some b) (byte :: rest) = readLossy (some b') rest := by
  simp [readLossy, next]

theorem toNat_byte {n : Nat} (lt : n < 256) : (UInt8.ofNat n).toNat = n := by
  rw [UInt8.toNat_ofNat', Nat.mod_eq_of_lt lt]

/-- The last byte of a character brings its last six bits. -/
theorem readLossy_last {value low high n : Nat} (above : low ≤ n + 0x80) (below : n + 0x80 ≤ high)
    (fits : n < 0x40) :
    readLossy (some ⟨value, 0, low, high⟩) (UInt8.ofNat (n + 0x80) :: rest) =
      Char.ofNat (value * 64 + n) :: readLossy none rest := by
  apply readLossy_next_whole
  rw [toNat_byte (by omega), Begun.next?, if_neg (by dsimp only; omega), Nat.add_sub_cancel]

/-- Any byte in between brings six as well, and the next one may be any that does not begin a character. -/
theorem readLossy_more {value owed low high n : Nat} (above : low ≤ n + 0x80) (below : n + 0x80 ≤ high)
    (fits : n < 0x40) :
    readLossy (some ⟨value, owed + 1, low, high⟩) (UInt8.ofNat (n + 0x80) :: rest) =
      readLossy (some ⟨value * 64 + n, owed, 0x80, 0xbf⟩) rest := by
  apply readLossy_next_begun
  rw [toNat_byte (by omega), Begun.next?, if_neg (by dsimp only; omega), Nat.add_sub_cancel]

theorem readLossy_two {a b : Nat} (above : 2 ≤ a) (ha : a < 0x20) (hb : b < 0x40) :
    readLossy none (UInt8.ofNat (a + 0xc0) :: UInt8.ofNat (b + 0x80) :: rest) =
      Char.ofNat (a * 64 + b) :: readLossy none rest := by
  have first : beginning? (UInt8.ofNat (a + 0xc0)).toNat = some (.begun ⟨a, 0, 0x80, 0xbf⟩) := by
    rw [toNat_byte (by omega), beginning?, if_neg (by omega), if_neg (by omega), if_pos (by omega), Nat.add_sub_cancel]
  rw [readLossy_beginning_begun first, readLossy_last (by omega) (by omega) hb]

/-- The second byte must not make an overlong form or a surrogate. -/
theorem readLossy_three {a b c : Nat} (ha : a < 0x10) (hb : b < 0x40) (hc : c < 0x40) (long : a = 0 → 0x20 ≤ b)
    (scalar : a = 0xd → b < 0x20) :
    readLossy none (UInt8.ofNat (a + 0xe0) :: UInt8.ofNat (b + 0x80) :: UInt8.ofNat (c + 0x80) :: rest) =
      Char.ofNat ((a * 64 + b) * 64 + c) :: readLossy none rest := by
  have first : beginning? (UInt8.ofNat (a + 0xe0)).toNat = some (.begun {
      value := a
      owed := 1
      low := if a + 0xe0 = 0xe0 then 0xa0 else 0x80
      high := if a + 0xe0 = 0xed then 0x9f else 0xbf }) := by
    rw [toNat_byte (by omega), beginning?, if_neg (by omega), if_neg (by omega), if_neg (by omega), if_pos (by omega),
      Nat.add_sub_cancel]
  rw [readLossy_beginning_begun first, readLossy_more (by split <;> omega) (by split <;> omega) hb,
    readLossy_last (by omega) (by omega) hc]

/-- Nor a character behind the last one. -/
theorem readLossy_four {a b c d : Nat} (ha : a < 5) (hb : b < 0x40) (hc : c < 0x40) (hd : d < 0x40)
    (long : a = 0 → 0x10 ≤ b) (scalar : a = 4 → b < 0x10) :
    readLossy none (UInt8.ofNat (a + 0xf0) :: UInt8.ofNat (b + 0x80) :: UInt8.ofNat (c + 0x80) ::
      UInt8.ofNat (d + 0x80) :: rest) = Char.ofNat (((a * 64 + b) * 64 + c) * 64 + d) :: readLossy none rest := by
  have first : beginning? (UInt8.ofNat (a + 0xf0)).toNat = some (.begun {
      value := a
      owed := 2
      low := if a + 0xf0 = 0xf0 then 0x90 else 0x80
      high := if a + 0xf0 = 0xf4 then 0x8f else 0xbf }) := by
    rw [toNat_byte (by omega), beginning?, if_neg (by omega), if_neg (by omega), if_neg (by omega), if_neg (by omega),
      if_pos (by omega), Nat.add_sub_cancel]
  rw [readLossy_beginning_begun first, readLossy_more (by split <;> omega) (by split <;> omega) hb,
    readLossy_more (by omega) (by omega) hc, readLossy_last (by omega) (by omega) hd]

/-- Character by character, by the number of bytes that a character takes. -/
theorem readLossy_utf8EncodeChar (c : Char) (rest : List UInt8) :
    readLossy none (String.utf8EncodeChar c ++ rest) = c :: readLossy none rest := by
  have valid : c.val.toNat < 0xd800 ∨ 0xdfff < c.val.toNat ∧ c.val.toNat < 0x110000 := c.valid
  have same : Char.ofNat c.val.toNat = c := Char.ofNat_toNat c
  unfold String.utf8EncodeChar
  dsimp only
  generalize c.val.toNat = v at valid same ⊢
  subst same
  split
  · next one =>
    apply readLossy_beginning_whole
    rw [toNat_byte (by omega), beginning?, if_pos (by omega)]
  split
  · next two =>
    rw [List.cons_append, List.cons_append, List.nil_append, readLossy_two (by omega) (by omega) (by omega)]
    congr 2
    omega
  split
  · next three =>
    rw [List.cons_append, List.cons_append, List.cons_append, List.nil_append,
      readLossy_three (by omega) (by omega) (by omega) (by omega) (by omega)]
    congr 2
    omega
  · next four =>
    rw [List.cons_append, List.cons_append, List.cons_append, List.cons_append, List.nil_append,
      readLossy_four (by omega) (by omega) (by omega) (by omega) (by omega) (by omega)]
    congr 2
    omega

theorem readLossy_flatMap (text : List Char) : readLossy none (text.flatMap String.utf8EncodeChar) = text := by
  induction text with
  | nil => rfl
  | cons c text ih => rw [List.flatMap_cons, readLossy_utf8EncodeChar, ih]

end Text

namespace Path

@[simp] theorem text_ofText (s : String) : (⟨s⟩ : Path).text = s := by
  rw [text, OsName.ofText, Text.lossy, Text.readLossy_flatMap, String.ofList_toList]

theorem isText_iff {p : Path} : p.isText = true ↔ p = ⟨p.text⟩ := by
  obtain ⟨spelling⟩ := p
  simp [isText]

theorem isText_ofText (s : String) : (⟨s⟩ : Path).isText = true := by
  rw [isText_iff, text_ofText]

/-- Paths that are texts are told apart by what they read as. -/
theorem eq_of_text {p q : Path} (hp : p.isText = true) (hq : q.isText = true) (same : p.text = q.text) : p = q := by
  rw [isText_iff.mp hp, isText_iff.mp hq, same]

/-- Two bytes of which neither begins a character. -/
example : (⟨⟨[0xff]⟩⟩ : Path).text = (⟨⟨[0xfe]⟩⟩ : Path).text := by decide +kernel

/-- A character that breaks off between two others, and one cut off by the end. -/
example : (⟨⟨[0x61, 0xe2, 0x82, 0x62, 0xf0, 0x9f, 0x98]⟩⟩ : Path).text = "a\ufffdb\ufffd" := by decide +kernel

end Path
end CodeWorkspace
