import LayoutLexer.Text.Quoted
import Mathlib.Data.List.TakeWhile

namespace LayoutLexer.Text

/-!
# Reading quoted texts

Behind an opening quotation mark, a text is read up to the next mark that is not
part of an escape. An escape is a backslash and a code; which codes there are, and
which characters may stand for themselves, differs between notations. If every
character is written as itself or by a code that is read back as it, so is every
text, whatever stands behind it (`unquote_flatMap`).

The notation of listings is one such (`unquote_quoted`). Its codes for characters
without a shape of their own hold a number of any length.
-/

/-! ### Numbers -/

/-- The number that decimal digits stand for. -/
def decimal? (digits : List Char) : Option Nat :=
  if digits ≠ [] ∧ digits.all Char.isDigit then
    some (Nat.ofDigitChars 10 digits 0)
  else
    none

theorem isDigit_of_mem_toDigits
    {number : Nat} :
    ∀ c ∈ Nat.toDigits 10 number, c.isDigit = true := by
  intro c member
  exact Nat.isDigit_of_mem_toDigits (by decide) (by decide) member

/-- A number is read back from its decimal digits. -/
theorem decimal?_toDigits
    (number : Nat) :
    decimal? (Nat.toDigits 10 number) = some number := by
  rw [decimal?, if_pos, Nat.ofDigitChars_ten_toDigits]
  exact ⟨Nat.toDigits_ne_nil, List.all_eq_true.mpr isDigit_of_mem_toDigits⟩

/-- The value of a hexadecimal digit. -/
def hexDigit? (c : Char) : Option Nat :=
  if c.isDigit then
    some (c.toNat - '0'.toNat)
  else if 'a' ≤ c && c ≤ 'f' then
    some (c.toNat - 'a'.toNat + 10)
  else if 'A' ≤ c && c ≤ 'F' then
    some (c.toNat - 'A'.toNat + 10)
  else
    none

/-- The number that hexadecimal digits stand for. -/
def hexNumber? (digits : List Char) : Option Nat :=
  digits.foldlM (fun number c => (hexDigit? c).map (16 * number + ·)) 0

theorem hexDigit?_digitChar :
    ∀ digit < 16, hexDigit? (Nat.digitChar digit) = some digit := by
  decide

theorem hexNumber?_concat
    {digits : List Char}
    {number digit : Nat}
    (read : hexNumber? digits = some number)
    (isDigit : digit < 16) :
    hexNumber? (digits ++ [Nat.digitChar digit]) = some (16 * number + digit) := by
  rw [hexNumber?] at read
  rw [hexNumber?, List.foldlM_append, read]
  simp [hexDigit?_digitChar digit isDigit]

/-- A number is read back from its hexadecimal digits. -/
theorem hexNumber?_toDigits
    (number : Nat) :
    hexNumber? (Nat.toDigits 16 number) = some number := by
  induction number using Nat.strongRecOn with
  | ind number inductionHypothesis =>
      rw [Nat.toDigits_eq_if (by decide)]
      by_cases single : number < 16
      · have digit :
            hexNumber? ([] ++ [Nat.digitChar number]) =
              some (16 * 0 + number) :=
          hexNumber?_concat rfl single
        rw [if_pos single]
        simpa using digit
      · have leading := inductionHypothesis (number / 16) (by omega)
        rw [if_neg single, hexNumber?_concat leading (by omega)]
        exact congrArg some (Nat.div_add_mod number 16)

theorem exists_digitChar_of_mem_toDigits
    {number : Nat}
    {c : Char}
    (member : c ∈ Nat.toDigits 16 number) :
    ∃ digit, c = Nat.digitChar digit := by
  induction number using Nat.strongRecOn with
  | ind number inductionHypothesis =>
      rw [Nat.toDigits_eq_if (by decide)] at member
      by_cases single : number < 16
      · rw [if_pos single, List.mem_singleton] at member
        exact ⟨number, member⟩
      · rw [if_neg single, List.mem_append, List.mem_singleton] at member
        rcases member with leading | last
        · exact inductionHypothesis (number / 16) (by omega) leading
        · exact ⟨number % 16, last⟩

/-! ### Texts with escapes -/

/--
Read a text behind its opening quotation mark, and what stands behind the closing
one. Behind a backslash, `escape?` finds the character that is meant and the
length of its code; any other character has to be `plain`.
-/
def unquote
    (escape? : List Char → Option (Char × Nat))
    (plain : Char → Bool)
    (text : List Char) :
    Option (List Char × List Char) :=
  match text with
  | [] =>
      none
  | c :: rest =>
      if c = '"' then
        some ([], rest)
      else if c = '\\' then
        match escape? rest with
        | none =>
            none
        | some (meant, length) =>
            (unquote escape? plain (rest.drop length)).map fun read =>
              (meant :: read.1, read.2)
      else if plain c then
        (unquote escape? plain rest).map fun read => (c :: read.1, read.2)
      else
        none
termination_by text.length
decreasing_by
  all_goals simp only [List.length_drop, List.length_cons]
  all_goals omega

/-- A character is written so that it can be read back. -/
inductive Writes
    (escape? : List Char → Option (Char × Nat))
    (plain : Char → Bool)
    (c : Char) :
    List Char → Prop where
  | itself :
      c ≠ '"' →
      c ≠ '\\' →
      plain c = true →
      Writes escape? plain c [c]
  | escaped {code : List Char} :
      (∀ rest, escape? (code ++ rest) = some (c, code.length)) →
      Writes escape? plain c ('\\' :: code)

section

variable {escape? : List Char → Option (Char × Nat)}
variable {plain : Char → Bool}

/-- A character may be written by a code of one letter. -/
theorem Writes.letter
    {c meant code : Char}
    (isMeant : c = meant)
    (read : ∀ rest, escape? (code :: rest) = some (meant, 1)) :
    Writes escape? plain c ['\\', code] := by
  subst isMeant
  exact .escaped read

/-- A character that can be read back is read first. -/
theorem Writes.unquote_append
    {c : Char}
    {written : List Char}
    (writes : Writes escape? plain c written)
    (rest : List Char) :
    unquote escape? plain (written ++ rest) =
      (unquote escape? plain rest).map fun read => (c :: read.1, read.2) := by
  cases writes with
  | itself noMark noBackslash isPlain =>
      rw [List.singleton_append, unquote, if_neg noMark, if_neg noBackslash,
        if_pos isPlain]
  | @escaped code read =>
      have noMark : '\\' ≠ '"' := by decide
      rw [List.cons_append, unquote, if_neg noMark, if_pos rfl, read rest]
      simp

/-- A text is read back up to the mark that closes it. -/
theorem unquote_flatMap
    {write : Char → List Char}
    (writes : ∀ c, Writes escape? plain c (write c))
    (text rest : List Char) :
    unquote escape? plain (text.flatMap write ++ '"' :: rest) =
      some (text, rest) := by
  induction text with
  | nil =>
      rw [List.flatMap_nil, List.nil_append, unquote, if_pos rfl]
  | cons c text inductionHypothesis =>
      rw [List.flatMap_cons, List.append_assoc, (writes c).unquote_append,
        inductionHypothesis]
      rfl

end

/-! ### The notation of listings -/

/-- The codes of quoted texts. -/
def quotedEscape? : List Char → Option (Char × Nat)
  | '0' :: _ => some ('\x00', 1)
  | 't' :: _ => some ('\t', 1)
  | 'n' :: _ => some ('\n', 1)
  | 'r' :: _ => some ('\r', 1)
  | '\\' :: _ => some ('\\', 1)
  | '"' :: _ => some ('"', 1)
  | 'u' :: '\x7b' :: rest =>
      let digits := rest.takeWhile (· != '\x7d')
      (hexNumber? digits).map fun code => (Char.ofNat code, digits.length + 3)
  | _ => none

/-- A code point is read back from its code. -/
theorem quotedEscape?_codePoint
    (c : Char)
    (rest : List Char) :
    quotedEscape?
        ('u' :: '\x7b' :: (Nat.toDigits 16 c.toNat ++ '\x7d' :: rest)) =
      some (c, (Nat.toDigits 16 c.toNat).length + 3) := by
  have digits :
      (Nat.toDigits 16 c.toNat ++ '\x7d' :: rest).takeWhile (· != '\x7d') =
        Nat.toDigits 16 c.toNat := by
    rw [List.takeWhile_append_of_pos]
    · simp
    · intro digit member
      obtain ⟨value, isDigit⟩ := exists_digitChar_of_mem_toDigits member
      rw [isDigit, bne_iff_ne]
      exact Nat.digitChar_ne '\x7d' (by decide)
  rw [quotedEscape?]
  simp only [digits, hexNumber?_toDigits, Option.map_some, Char.ofNat_toNat]

/-- In a quoted text, every character can be read back. -/
theorem writes_escaped
    (c : Char) :
    Writes quotedEscape? (fun _ => true) c (escaped doubleQuote c) := by
  unfold escaped
  split_ifs with isNull isTab isFeed isReturn isMark isShapeless
  · exact .letter isNull fun _ => rfl
  · exact .letter isTab fun _ => rfl
  · exact .letter isFeed fun _ => rfl
  · exact .letter isReturn fun _ => rfl
  · simp only [Bool.or_eq_true, decide_eq_true_eq] at isMark
    rcases isMark with isBackslash | isQuotation
    · subst isBackslash
      exact .escaped fun _ => rfl
    · subst isQuotation
      exact .escaped fun _ => rfl
  · exact .escaped fun rest => by
      simpa using quotedEscape?_codePoint c rest
  · simp only [Bool.or_eq_true, decide_eq_true_eq, not_or] at isMark
    exact .itself isMark.2 isMark.1 rfl

/-- A quoted text is read back, whatever stands behind it. -/
theorem unquote_quoted
    (text : String)
    (rest : List Char) :
    unquote quotedEscape? (fun _ => true)
        (text.toList.flatMap (escaped doubleQuote) ++ '"' :: rest) =
      some (text.toList, rest) :=
  unquote_flatMap writes_escaped text.toList rest

/-- A quoted text stays on its line. -/
theorem ne_lineBreak_of_mem_escaped
    (c : Char) :
    ∀ shown ∈ escaped doubleQuote c, shown ≠ '\n' ∧ shown ≠ '\r' := by
  unfold escaped
  split_ifs with isNull isTab isFeed isReturn isMark isShapeless
  · simp
  · simp
  · simp
  · simp
  · simp [isFeed, isReturn]
  · intro shown member
    have aroundNumber :
        ∀ shown ∈ ['\\', 'u', '\x7b', '\x7d'], shown ≠ '\n' ∧ shown ≠ '\r' := by
      simp
    simp only [codePointEscape, List.mem_append] at member
    rcases member with (opening | inNumber) | closing
    · exact aroundNumber shown (List.mem_append_left ['\x7d'] opening)
    · obtain ⟨digit, isDigit⟩ := exists_digitChar_of_mem_toDigits inNumber
      subst isDigit
      exact ⟨Nat.digitChar_ne '\n' (by decide),
        Nat.digitChar_ne '\r' (by decide)⟩
    · exact aroundNumber shown
        (List.mem_append_right ['\\', 'u', '\x7b'] closing)
  · simp [isFeed, isReturn]

end LayoutLexer.Text
