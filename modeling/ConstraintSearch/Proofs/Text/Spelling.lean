import ConstraintSearch.Text.Blank
import ConstraintSearch.Text.Quoted
import Mathlib.Tactic.SplitIfs

/-!
# Characters and their names

The blank characters are the 25 code points that Unicode calls white space (`isBlank_iff`).

The name of a character in a message is the character between single marks, with what a page does
not show written as an escape.  The name can be read back (`readName_quotedChar`), so no two
characters share one.
-/

namespace ConstraintSearch

/-! ## White space -/

/-- The code points with the property `White_Space` of Unicode. -/
def whiteSpace : List Nat :=
  [0x9, 0xa, 0xb, 0xc, 0xd, 0x20, 0x85, 0xa0, 0x1680, 0x2000, 0x2001, 0x2002, 0x2003, 0x2004,
   0x2005, 0x2006, 0x2007, 0x2008, 0x2009, 0x200a, 0x2028, 0x2029, 0x202f, 0x205f, 0x3000]

theorem isBlank_iff {c : Char} : isBlank c = true ↔ c.toNat ∈ whiteSpace := by
  simp only [isBlank, whiteSpace, Bool.or_eq_true, Bool.and_eq_true, decide_eq_true_eq, beq_iff_eq,
    List.mem_cons, List.not_mem_nil, or_false]
  omega

/-! ## Hexadecimal digits -/

/-- The value of a hexadecimal digit. -/
def hexValue (c : Char) : Nat := if c.toNat < 'a'.toNat then c.toNat - 48 else c.toNat - 87

/-- The number that hexadecimal digits write. -/
def readHex (digits : List Char) : Nat :=
  digits.foldl (fun number c => 16 * number + hexValue c) 0

theorem hexValue_digitChar {digit : Nat} (hlt : digit < 16) : hexValue digit.digitChar = digit := by
  decide +revert

theorem readHex_toDigits (n : Nat) : readHex (Nat.toDigits 16 n) = n := by
  induction n using Nat.strongRecOn with
  | ind n ih =>
      by_cases hlt : n < 16
      · rw [Nat.toDigits_of_lt_base hlt]
        simp only [readHex, List.foldl_cons, List.foldl_nil, hexValue_digitChar hlt]
        omega
      · have hrest : readHex (Nat.toDigits 16 (n / 16)) = n / 16 := ih (n / 16) (by omega)
        have hdigit : hexValue (n % 16).digitChar = n % 16 :=
          hexValue_digitChar (Nat.mod_lt n (by decide))
        unfold readHex at hrest
        rw [Nat.toDigits_of_base_le (by decide) (by omega), readHex, List.foldl_append, hrest]
        simp only [List.foldl_cons, List.foldl_nil, hdigit]
        omega

/-! ## Names -/

/-- What a letter after a backslash stands for, between single marks. -/
def escapeLetters : List (Char × Char) :=
  [('0', '\x00'), ('t', '\t'), ('r', '\r'), ('n', '\n'), ('\\', '\\'), ('\'', '\'')]

/-- Reads what stands between the marks: a character, a letter after a backslash, or a code point. -/
def unescape? : List Char → Option Char
  | [c] => some c
  | ['\\', letter] => escapeLetters.lookup letter
  | '\\' :: 'u' :: '\x7b' :: digits => some (Char.ofNat (readHex digits.dropLast))
  | _ => none

/-- The character that a name names. -/
def readName? (name : String) : Option Char := unescape? name.toList.tail.dropLast

theorem unescape_codePointText (c : Char) : unescape? (codePointText c).toList = some c := by
  have htext : (codePointText c).toList =
      '\\' :: 'u' :: '\x7b' :: (Nat.toDigits 16 c.toNat ++ ['\x7d']) := by
    simp [codePointText]
  rw [htext, unescape?, List.dropLast_concat, readHex_toDigits, Char.ofNat_toNat]

theorem unescape_escapeWithin (c : Char) : unescape? (escapeWithin '\'' c).toList = some c := by
  unfold escapeWithin
  split_ifs with hzero htab hreturn hnewline hmark hunseen
  · subst hzero
    rfl
  · subst htab
    rfl
  · subst hreturn
    rfl
  · subst hnewline
    rfl
  · rcases hmark with rfl | rfl <;> rfl
  · exact unescape_codePointText c
  · rw [Char.toString, String.toList_singleton]
    rfl

theorem readName_quotedChar (c : Char) : readName? (quotedChar c) = some c := by
  have htext : (quotedChar c).toList.tail.dropLast = (escapeWithin '\'' c).toList := by
    simp [quotedChar]
  rw [readName?, htext, unescape_escapeWithin]

theorem quotedChar_inj {c other : Char} : quotedChar c = quotedChar other ↔ c = other := by
  refine ⟨fun h => ?_, congrArg quotedChar⟩
  have hread : some c = some other := by
    rw [← readName_quotedChar c, ← readName_quotedChar other, h]
  exact Option.some.inj hread

end ConstraintSearch
