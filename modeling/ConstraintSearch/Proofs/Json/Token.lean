import ConstraintSearch.Json.Token
import Mathlib.Data.List.TakeWhile

/-!
# Cutting written texts

A text that is put together of marks, strings and words is cut into the tokens that it was put
together of, as long as no two words stand side by side.  `Cuts` says that a text is cut into
tokens, the last one perhaps a word that may still go on; behind `CutsCleanly` no word is under way,
so that another word may follow.  A mark ends a word (`Cuts.mark`), and texts that are cut into
tokens can be put one behind the other (`CutsCleanly.cuts_append`).

The other way round, whatever text is cut, its tokens are well formed: what counts as a number is
one, and what counts as a string has the parts of one (`wellFormed_of_tokens?`).

## Contents

* *Words.*  What a natural number or a number is written with never ends a word, so it is read to its
  end before it is looked at.
* *Strings.*  A string is read from its first mark to its last one; an escape hides the character
  behind it, so a mark in the string does not end it (`foldlM_read_body`).
* *Texts.*  `Cuts` and `CutsCleanly`, and how they go over to texts that are put together.
* *Any text.*  Reading a character keeps the tokens so far well formed (`Sound.read`).
-/

namespace ConstraintSearch.Json

/-! ## Natural numbers -/

theorem head?_toDigits_ne_zero {n : Nat} (hpos : 0 < n) : (Nat.toDigits 10 n).head? ≠ some '0' := by
  induction n using Nat.strongRecOn with
  | ind n ih =>
      by_cases hlt : n < 10
      · have hdigit : ∀ digit < 10, 0 < digit → [digit.digitChar].head? ≠ some '0' := by decide
        rw [Nat.toDigits_of_lt_base hlt]
        exact hdigit n hlt hpos
      · have hrest : (Nat.toDigits 10 (n / 10)).head? ≠ some '0' := ih (n / 10) (by omega) (by omega)
        rw [Nat.toDigits_of_base_le (by decide) (by omega), List.head?_append]
        cases hhead : (Nat.toDigits 10 (n / 10)).head? with
        | none => exact absurd (List.head?_eq_none_iff.1 hhead) Nat.toDigits_ne_nil
        | some digit =>
            rw [hhead] at hrest
            exact hrest

theorem isNatural_toDigits (n : Nat) : isNatural (Nat.toDigits 10 n) = true := by
  have hdigits : isDigits (Nat.toDigits 10 n) = true := by
    have hall : ∀ c ∈ Nat.toDigits 10 n, c.isDigit = true :=
      fun c hc => Nat.isDigit_of_mem_toDigits (by decide) (by decide) hc
    simpa [isDigits] using hall
  rw [isNatural, hdigits, Bool.true_and, Bool.or_eq_true]
  -- Only zero itself begins with a zero.
  rcases Nat.eq_zero_or_pos n with rfl | hpos
  · exact .inr rfl
  · exact .inl (bne_iff_ne.2 (head?_toDigits_ne_zero hpos))

/-- A number that is written can be read. -/
theorem natural?_toDigits (n : Nat) : natural? (Nat.toDigits 10 n) = some n := by
  rw [natural?, if_pos (isNatural_toDigits n), ← Nat.ofDigitChars_eq_foldl,
    Nat.ofDigitChars_ten_toDigits]

theorem isNumber_of_isNatural {text : List Char} (h : isNatural text = true) :
    isNumber text = true := by
  have hall : ∀ c ∈ text, c.isDigit = true := by
    simp only [isNatural, isDigits, Bool.and_eq_true, List.all_eq_true] at h
    exact h.1.2
  have hsign : text.head? ≠ some '-' :=
    fun hhead => absurd (hall '-' (List.mem_of_head? hhead)) (by decide)
  have htake : text.takeWhile Char.isDigit = text := List.takeWhile_eq_self_iff.2 hall
  have hdrop : text.dropWhile Char.isDigit = [] := List.dropWhile_eq_nil_iff.2 hall
  simp only [isNumber, if_neg hsign, htake, hdrop, h]
  rfl

/-! ## Words -/

/-- The character may belong to a word: it is neither blank nor a mark, and begins no string. -/
structure WordChar (c : Char) : Prop where
  not_blank : ¬(c = ' ' ∨ c = '\t' ∨ c = '\n' ∨ c = '\r')
  ne_quote : c ≠ '"'
  no_mark : mark? c = none

theorem wordChar_iff {c : Char} : WordChar c ↔
    ¬(c = ' ' ∨ c = '\t' ∨ c = '\n' ∨ c = '\r') ∧ c ≠ '"' ∧ mark? c = none :=
  ⟨fun h => ⟨h.not_blank, h.ne_quote, h.no_mark⟩, fun h => ⟨h.1, h.2.1, h.2.2⟩⟩

instance : DecidablePred WordChar := fun _ => decidable_of_iff' _ wordChar_iff

theorem wordChar_of_all {text : List Char} (h : text.all (fun c => decide (WordChar c)) = true) :
    ∀ c ∈ text, WordChar c :=
  fun c hc => of_decide_eq_true (List.all_eq_true.1 h c hc)

theorem wordChar_of_isDigit {c : Char} (h : c.isDigit = true) : WordChar c where
  not_blank := by
    rintro (rfl | rfl | rfl | rfl) <;> exact absurd h (by decide)
  ne_quote := by
    rintro rfl
    exact absurd h (by decide)
  no_mark := by
    unfold mark?
    split <;> first | rfl | exact absurd h (by decide)

theorem wordChar_of_mem_sign {c : Char} (h : c ∈ ['-', '+', '.', 'e', 'E']) : WordChar c := by
  simp only [List.mem_cons, List.not_mem_nil, or_false] at h
  rcases h with rfl | rfl | rfl | rfl | rfl <;> decide

theorem wordChar_of_isDigits {text : List Char} (h : isDigits text = true) :
    ∀ c ∈ text, WordChar c := by
  simp only [isDigits, Bool.and_eq_true, List.all_eq_true] at h
  exact fun c hc => wordChar_of_isDigit (h.2 c hc)

theorem wordChar_of_isExponent {text : List Char} (h : isExponent text = true) :
    ∀ c ∈ text, WordChar c := by
  cases text with
  | nil => exact nofun
  | cons e text =>
      simp only [isExponent, Bool.and_eq_true, Bool.or_eq_true, decide_eq_true_eq] at h
      obtain ⟨he, hdigits⟩ := h
      have hletter : WordChar e := by
        rcases he with rfl | rfl <;> exact wordChar_of_mem_sign (by decide)
      refine List.forall_mem_cons.2 ⟨hletter, ?_⟩
      split at hdigits
      · exact List.forall_mem_cons.2 ⟨wordChar_of_mem_sign (by decide), wordChar_of_isDigits hdigits⟩
      · exact List.forall_mem_cons.2 ⟨wordChar_of_mem_sign (by decide), wordChar_of_isDigits hdigits⟩
      · exact wordChar_of_isDigits hdigits

/-- A text whose digits at its beginning are followed by word characters consists of these. -/
theorem wordChar_of_dropWhile {text : List Char}
    (h : ∀ c ∈ text.dropWhile Char.isDigit, WordChar c) : ∀ c ∈ text, WordChar c := by
  intro c hc
  rw [← List.takeWhile_append_dropWhile (p := Char.isDigit) (l := text), List.mem_append] at hc
  rcases hc with hdigit | hrest
  · exact wordChar_of_isDigit (List.mem_takeWhile_imp hdigit)
  · exact h c hrest

theorem wordChar_of_isFraction {text : List Char} (h : isFraction text = true) :
    ∀ c ∈ text, WordChar c := by
  unfold isFraction at h
  split at h
  · rename_i text
    rw [Bool.and_eq_true] at h
    exact List.forall_mem_cons.2
      ⟨wordChar_of_mem_sign (by decide), wordChar_of_dropWhile (wordChar_of_isExponent h.2)⟩
  · exact wordChar_of_isExponent h

theorem wordChar_of_isNumber {text : List Char} (h : isNumber text = true) :
    ∀ c ∈ text, WordChar c := by
  simp only [isNumber, Bool.and_eq_true] at h
  have hunsigned := wordChar_of_dropWhile (wordChar_of_isFraction h.2)
  split at hunsigned
  · rename_i hsign
    cases text with
    | nil => exact nofun
    | cons c text =>
        obtain rfl : c = '-' := Option.some.inj hsign
        exact List.forall_mem_cons.2 ⟨wordChar_of_mem_sign (by decide), hunsigned⟩
  · exact hunsigned

theorem ne_nil_of_isNumber {text : List Char} (h : isNumber text = true) : text ≠ [] := by
  rintro rfl
  exact absurd h (by decide)

/-! ## Cutting -/

/-- No string is under way, and when the word under way is ended, if there is one, these are the
tokens read so far. -/
structure Cutting.Rests (cutting : Cutting) (tokens : List Token) : Prop where
  ended : cutting.endWord = some { tokens }
  outside : ∀ characters escaped, cutting.unfinished ≠ .string characters escaped

namespace Cutting

variable {cutting : Cutting} {tokens : List Token} {token : Token}

/-- No word is under way. -/
theorem rests_between (tokens : List Token) : Rests { tokens } tokens :=
  ⟨rfl, nofun⟩

theorem Rests.read_eq (h : cutting.Rests tokens) (c : Char) :
    cutting.read c = cutting.readOutside c := by
  have houtside := h.outside
  unfold read
  split
  · exact absurd ‹_› (houtside _ _)
  · exact absurd ‹_› (houtside _ _)
  · rfl

theorem Rests.finish_eq (h : cutting.Rests tokens) : cutting.finish = some tokens.reverse := by
  have houtside := h.outside
  unfold finish
  split
  · exact absurd ‹_› (houtside _ _)
  · rw [h.ended]
    rfl

/-- A mark ends the word before it. -/
theorem Rests.read_mark (h : cutting.Rests tokens) {c : Char} (hmark : mark? c = some token) :
    cutting.read c = some { tokens := token :: tokens } := by
  have hblank : ¬(c = ' ' ∨ c = '\t' ∨ c = '\n' ∨ c = '\r') := by
    rintro (rfl | rfl | rfl | rfl) <;> cases hmark
  have hquote : c ≠ '"' := by
    rintro rfl
    cases hmark
  rw [h.read_eq, readOutside, if_neg hblank, if_neg hquote, hmark, h.ended]
  rfl

/-- So does the beginning of a string. -/
theorem Rests.read_quote (h : cutting.Rests tokens) :
    cutting.read '"' = some { tokens, unfinished := .string [] false } := by
  rw [h.read_eq, readOutside, if_neg (by decide), if_pos rfl, h.ended]
  rfl

theorem read_wordChar {c : Char} (h : WordChar c) (characters : List Char) :
    read { tokens, unfinished := .word characters } c =
      some { tokens, unfinished := .word (c :: characters) } := by
  show readOutside _ c = _
  rw [readOutside, if_neg h.not_blank, if_neg h.ne_quote, h.no_mark]

theorem read_wordChar_first {c : Char} (h : WordChar c) :
    read { tokens } c = some { tokens, unfinished := .word [c] } := by
  show readOutside _ c = _
  rw [readOutside, if_neg h.not_blank, if_neg h.ne_quote, h.no_mark]

theorem foldlM_read_word {text : List Char} (h : ∀ c ∈ text, WordChar c) (characters : List Char) :
    text.foldlM read { tokens, unfinished := .word characters } =
      some { tokens, unfinished := .word (text.reverse ++ characters) } := by
  induction text generalizing characters with
  | nil => rfl
  | cons c text ih =>
      obtain ⟨hc, htext⟩ := List.forall_mem_cons.1 h
      rw [List.foldlM_cons, read_wordChar hc]
      show List.foldlM read _ text = _
      rw [ih htext, List.reverse_cons, List.append_assoc]
      rfl

/-! ### Strings -/

/-- A character of a string that is none of the two special ones. -/
theorem read_plain {c : Char} (hquote : c ≠ '"') (hbackslash : c ≠ '\\') (characters : List Char) :
    read { tokens, unfinished := .string characters false } c =
      some { tokens, unfinished := .string (c :: characters) false } := by
  show (if c = '"' then _ else _) = _
  rw [if_neg hquote, decide_eq_false hbackslash]

/-- A backslash takes the character behind it along, whatever that is. -/
theorem foldlM_read_escape (c : Char) (rest characters : List Char) :
    ('\\' :: c :: rest).foldlM read { tokens, unfinished := .string characters false } =
      rest.foldlM read { tokens, unfinished := .string (c :: '\\' :: characters) false } := rfl

theorem foldlM_read_plain {text : List Char} (h : ∀ c ∈ text, c ≠ '"' ∧ c ≠ '\\')
    (rest characters : List Char) :
    (text ++ rest).foldlM read { tokens, unfinished := .string characters false } =
      rest.foldlM read { tokens, unfinished := .string (text.reverse ++ characters) false } := by
  induction text generalizing characters with
  | nil => rfl
  | cons c text ih =>
      obtain ⟨⟨hquote, hbackslash⟩, htext⟩ := List.forall_mem_cons.1 h
      rw [List.cons_append, List.foldlM_cons, read_plain hquote hbackslash]
      show List.foldlM read _ (text ++ rest) = _
      rw [ih htext, List.reverse_cons, List.append_assoc]
      rfl

theorem plain_of_hexDigit {c : Char} (h : (hexDigit? c).isSome = true) : c ≠ '"' ∧ c ≠ '\\' := by
  constructor
  · rintro rfl
    exact absurd h (by decide)
  · rintro rfl
    exact absurd h (by decide)

theorem plain_of_hexUnit {a b c d : Char} {unit : Nat} (h : hexUnit? a b c d = some unit) :
    ∀ digit ∈ [a, b, c, d], digit ≠ '"' ∧ digit ≠ '\\' := by
  simp only [hexUnit?, Option.bind_eq_bind, Option.bind_eq_some_iff] at h
  obtain ⟨_, ha, _, hb, _, hc, _, hd, -⟩ := h
  simp only [List.forall_mem_cons, List.not_mem_nil, false_implies, implies_true, and_true]
  exact ⟨plain_of_hexDigit (ha ▸ rfl), plain_of_hexDigit (hb ▸ rfl), plain_of_hexDigit (hc ▸ rfl),
    plain_of_hexDigit (hd ▸ rfl)⟩

/-- The body of a string is read up to its end, and no mark within ends it too early. -/
theorem foldlM_read_body {body : List Char} (h : (parts? body).isSome = true)
    (characters : List Char) :
    body.foldlM read { tokens, unfinished := .string characters false } =
      some { tokens, unfinished := .string (body.reverse ++ characters) false } := by
  fun_induction parts? body generalizing characters with
  | case1 => rfl
  | case2 a b c d rest ih =>
      simp only [Option.isSome_iff_exists, Option.bind_eq_bind, Option.bind_eq_some_iff] at h
      obtain ⟨_, unit, hunit, parts, hparts, -⟩ := h
      rw [foldlM_read_escape]
      exact (foldlM_read_plain (plain_of_hexUnit hunit) rest ('u' :: '\\' :: characters)).trans
        ((ih (hparts ▸ rfl) _).trans (by simp))
  | case3 c rest _ ih =>
      simp only [Option.isSome_iff_exists, Option.bind_eq_bind, Option.bind_eq_some_iff] at h
      obtain ⟨_, letter, -, parts, hparts, -⟩ := h
      rw [foldlM_read_escape]
      exact (ih (hparts ▸ rfl) _).trans (by simp)
  | case4 => cases h
  | case5 c rest _ _ hplain ih =>
      simp only [not_or] at hplain
      rw [Option.isSome_map] at h
      rw [List.foldlM_cons, read_plain hplain.2.1 hplain.1]
      exact (ih h _).trans (by simp)

/-- A string is read from its first mark to its last one. -/
theorem Rests.foldlM_read_string {cutting : Cutting} (h : cutting.Rests tokens) {body : List Char}
    (hbody : (parts? body).isSome = true) :
    ('"' :: (body ++ ['"'])).foldlM read cutting = some { tokens := .string body :: tokens } := by
  rw [List.foldlM_cons, h.read_quote]
  show (body ++ ['"']).foldlM read _ = _
  rw [List.foldlM_append, foldlM_read_body hbody]
  show (if (parts? (body.reverse ++ []).reverse).isSome = true then _ else none) >>= _ = _
  rw [List.append_nil, List.reverse_reverse, if_pos hbody]
  rfl

end Cutting

/-! ## Texts that are cut into tokens -/

/-- Between tokens, the text is cut into the tokens, the last one of which may be a word that is still
under way. -/
def Cuts (text : List Char) (tokens : List Token) : Prop :=
  ∀ before, ∃ after, text.foldlM Cutting.read { tokens := before } = some after ∧
    after.Rests (tokens.reverse ++ before)

/-- Between tokens, the text is cut into the tokens, and behind it no word is under way. -/
def CutsCleanly (text : List Char) (tokens : List Token) : Prop :=
  ∀ before, text.foldlM Cutting.read { tokens := before } =
    some { tokens := tokens.reverse ++ before }

section Texts

variable {text next : List Char} {tokens following : List Token} {token : Token}

theorem CutsCleanly.cuts (h : CutsCleanly text tokens) : Cuts text tokens :=
  fun before => ⟨_, h before, Cutting.rests_between _⟩

theorem cutsCleanly_nil : CutsCleanly [] [] :=
  fun _ => rfl

theorem CutsCleanly.cuts_append (h : CutsCleanly text tokens) (hnext : Cuts next following) :
    Cuts (text ++ next) (tokens ++ following) := by
  intro before
  obtain ⟨after, hafter, hrests⟩ := hnext (tokens.reverse ++ before)
  refine ⟨after, ?_, ?_⟩
  · rw [List.foldlM_append, h before]
    exact hafter
  · rw [List.reverse_append, List.append_assoc]
    exact hrests

theorem CutsCleanly.append (h : CutsCleanly text tokens) (hnext : CutsCleanly next following) :
    CutsCleanly (text ++ next) (tokens ++ following) := by
  intro before
  rw [List.foldlM_append, h before, List.reverse_append, List.append_assoc]
  exact hnext _

/-- A mark may stand behind any token. -/
theorem Cuts.mark (h : Cuts text tokens) {c : Char} (hmark : mark? c = some token) :
    CutsCleanly (text ++ [c]) (tokens ++ [token]) := by
  intro before
  obtain ⟨after, hafter, hrests⟩ := h before
  rw [List.foldlM_append, hafter, List.reverse_append]
  show Cutting.read after c >>= _ = _
  rw [hrests.read_mark hmark]
  rfl

theorem cutsCleanly_mark {c : Char} (hmark : mark? c = some token) : CutsCleanly [c] [token] :=
  cutsCleanly_nil.cuts.mark hmark

theorem cutsCleanly_string {body : List Char} (h : (parts? body).isSome = true) :
    CutsCleanly ('"' :: (body ++ ['"'])) [.string body] :=
  fun before => (Cutting.rests_between before).foldlM_read_string h

theorem cuts_word (hnonempty : text ≠ []) (hchars : ∀ c ∈ text, WordChar c)
    (hword : word? text = some token) : Cuts text [token] := by
  intro before
  obtain ⟨c, text, rfl⟩ := List.exists_cons_of_ne_nil hnonempty
  obtain ⟨hc, htext⟩ := List.forall_mem_cons.1 hchars
  refine ⟨{ tokens := before, unfinished := .word (text.reverse ++ [c]) }, ?_, ?_, nofun⟩
  · rw [List.foldlM_cons, Cutting.read_wordChar_first hc]
    exact Cutting.foldlM_read_word htext [c]
  · show (word? (text.reverse ++ [c]).reverse).map _ = _
    rw [List.reverse_append, List.reverse_reverse]
    show (word? (c :: text)).map _ = _
    rw [hword]
    rfl

theorem cuts_number (h : isNumber text = true) : Cuts text [.number text] := by
  have hother : ∀ word ∈ ["null".toList, "true".toList, "false".toList], text ≠ word := by
    rintro word hword rfl
    simp only [List.mem_cons, List.not_mem_nil, or_false] at hword
    rcases hword with rfl | rfl | rfl <;> exact absurd h (by decide)
  simp only [List.forall_mem_cons, List.not_mem_nil, false_implies, implies_true, and_true] at hother
  refine cuts_word (ne_nil_of_isNumber h) (wordChar_of_isNumber h) ?_
  rw [word?, if_neg hother.1, if_neg hother.2.1, if_neg hother.2.2, if_pos h]

/-- Texts with a mark between any two of them. -/
theorem cuts_intercalate {ι : Type} {spelling : ι → List Char} {cut : ι → List Token} {c : Char}
    (hmark : mark? c = some token) {items : List ι}
    (h : ∀ item ∈ items, Cuts (spelling item) (cut item)) :
    Cuts ([c].intercalate (items.map spelling)) ([token].intercalate (items.map cut)) := by
  induction items with
  | nil => exact cutsCleanly_nil.cuts
  | cons item items ih =>
      obtain ⟨hitem, hitems⟩ := List.forall_mem_cons.1 h
      cases items with
      | nil =>
          rw [List.map_singleton, List.map_singleton, List.intercalate_singleton,
            List.intercalate_singleton]
          exact hitem
      | cons other items =>
          -- Between two items stands the mark, which ends a word that may be under way.
          have hrest := ih hitems
          rw [List.map_cons, List.map_cons] at hrest ⊢
          rw [List.map_cons, List.map_cons, List.intercalate_cons_cons, List.intercalate_cons_cons]
          exact (hitem.mark hmark).cuts_append hrest

theorem Cuts.tokens?_eq (h : Cuts text tokens) : tokens? text = some tokens := by
  obtain ⟨after, hafter, hrests⟩ := h []
  rw [tokens?, hafter]
  show after.finish = _
  rw [hrests.finish_eq, List.append_nil, List.reverse_reverse]

end Texts

/-! ## Tokens of any text -/

/-- What counts as a number is one, and what counts as a string has the parts of one. -/
def Token.WellFormed : Token → Prop
  | .number literal => isNumber literal = true
  | .string body => (parts? body).isSome = true
  | _ => True

/-- What every step of a reader keeps holds at its end. -/
theorem foldlM_keeps {α β : Type} {step : β → α → Option β} {keeps : β → Prop} {items : List α}
    (hstep : ∀ item ∈ items, ∀ state next, keeps state → step state item = some next → keeps next)
    {state last : β} (hstate : keeps state) (hlast : items.foldlM step state = some last) :
    keeps last := by
  induction items generalizing state with
  | nil =>
      cases hlast
      exact hstate
  | cons item items ih =>
      obtain ⟨hitem, hitems⟩ := List.forall_mem_cons.1 hstep
      rw [List.foldlM_cons, Option.bind_eq_bind, Option.bind_eq_some_iff] at hlast
      obtain ⟨next, hnext, hlast⟩ := hlast
      exact ih hitems (hitem state next hstate hnext) hlast

theorem wellFormed_of_mark? {c : Char} {token : Token} (h : mark? c = some token) :
    token.WellFormed := by
  unfold mark? at h
  split at h <;> cases h <;> trivial

theorem wellFormed_of_word? {text : List Char} {token : Token} (h : word? text = some token) :
    token.WellFormed := by
  unfold word? at h
  split at h
  · cases h
    trivial
  · split at h
    · cases h
      trivial
    · split at h
      · cases h
        trivial
      · split at h
        · cases h
          assumption
        · cases h

namespace Cutting

variable {cutting next : Cutting} {c : Char}

/-- The tokens read so far are well formed. -/
def Sound (cutting : Cutting) : Prop := ∀ token ∈ cutting.tokens, token.WellFormed

theorem Sound.endWord (h : cutting.Sound) (hnext : cutting.endWord = some next) : next.Sound := by
  unfold Cutting.endWord at hnext
  split at hnext
  · obtain ⟨token, htoken, rfl⟩ := Option.map_eq_some_iff.1 hnext
    exact List.forall_mem_cons.2 ⟨wellFormed_of_word? htoken, h⟩
  · cases hnext
    exact h

theorem Sound.readOutside (h : cutting.Sound) (hnext : cutting.readOutside c = some next) :
    next.Sound := by
  unfold Cutting.readOutside at hnext
  split at hnext
  · exact h.endWord hnext
  · split at hnext
    · obtain ⟨ended, hended, rfl⟩ := Option.map_eq_some_iff.1 hnext
      have hsound : ended.Sound := h.endWord hended
      exact hsound
    · split at hnext
      · rename_i token htoken
        obtain ⟨ended, hended, rfl⟩ := Option.map_eq_some_iff.1 hnext
        exact List.forall_mem_cons.2 ⟨wellFormed_of_mark? htoken, h.endWord hended⟩
      · split at hnext
        · cases hnext
          exact h
        · cases hnext
          exact h

theorem Sound.read (h : cutting.Sound) (hnext : cutting.read c = some next) : next.Sound := by
  unfold Cutting.read at hnext
  split at hnext
  · cases hnext
    exact h
  · split at hnext
    · simp only at hnext
      split at hnext
      · rename_i hbody
        cases hnext
        exact List.forall_mem_cons.2 ⟨hbody, h⟩
      · cases hnext
    · cases hnext
      exact h
  · exact h.readOutside hnext

theorem Sound.finish (h : cutting.Sound) {tokens : List Token}
    (htokens : cutting.finish = some tokens) : ∀ token ∈ tokens, token.WellFormed := by
  unfold Cutting.finish at htokens
  split at htokens
  · cases htokens
  · obtain ⟨ended, hended, rfl⟩ := Option.map_eq_some_iff.1 htokens
    intro token htoken
    exact h.endWord hended token (List.mem_reverse.1 htoken)

end Cutting

theorem wellFormed_of_tokens? {text : List Char} {tokens : List Token}
    (h : tokens? text = some tokens) : ∀ token ∈ tokens, token.WellFormed := by
  obtain ⟨cutting, hcutting, hfinish⟩ := Option.bind_eq_some_iff.1 h
  have hstart : Cutting.Sound {} := fun _ hnone => nomatch hnone
  have hsound : cutting.Sound :=
    foldlM_keeps (fun _ _ _ _ hsound hnext => Cutting.Sound.read hsound hnext) hstart hcutting
  exact hsound.finish hfinish

end ConstraintSearch.Json
