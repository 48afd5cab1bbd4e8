import LayoutLexer.Proofs.LineTokens

namespace LayoutLexer

namespace Bytes

/-!
# Texts as bytes

A text can be read by the bytes of its UTF-8 form. A class of characters is a
class of bytes then, a literal is compared as bytes, and a line feed is looked
for among bytes.

All bytes of a character beyond ASCII are beyond ASCII, too, and the language has
no other classes and literals than those of ASCII. So a run of bytes ends where
the run of characters does (`Reads.runs_encode`).
-/

/-- The UTF-8 form of a text. -/
def encode (text : List Char) : List UInt8 :=
  text.flatMap String.utf8EncodeChar

/-- The bytes of a string. -/
def ofString (text : String) : List UInt8 :=
  text.toUTF8.data.toList

def isBlank (byte : UInt8) : Bool :=
  byte == 0x20 || byte == 0x09

def isDigit (byte : UInt8) : Bool :=
  0x30 ≤ byte && byte ≤ 0x39

def isAlpha (byte : UInt8) : Bool :=
  (0x41 ≤ byte && byte ≤ 0x5A) || (0x61 ≤ byte && byte ≤ 0x7A)

def startsIdentifier (byte : UInt8) : Bool :=
  isAlpha byte || byte == 0x5F

def continuesIdentifier (byte : UInt8) : Bool :=
  isAlpha byte || isDigit byte || byte == 0x5F

/-- The number of blanks that some bytes start with. -/
def blankRun (bytes : List UInt8) : Nat :=
  (bytes.takeWhile isBlank).length

/-- The number of digits that some bytes start with. -/
def digitRun (bytes : List UInt8) : Nat :=
  (bytes.takeWhile isDigit).length

/-- The length of the identifier that some bytes start with, or zero. -/
def identifierRun : List UInt8 → Nat
  | [] =>
      0
  | byte :: rest =>
      if startsIdentifier byte then
        1 + (rest.takeWhile continuesIdentifier).length
      else
        0

/-- The length of the line terminator at the start of some bytes. -/
def terminatorLength? (bytes : List UInt8) : Option Nat :=
  if [0x0A].isPrefixOf bytes then
    some 1
  else if [0x0D, 0x0A].isPrefixOf bytes then
    some 2
  else
    none

/-! ### Bytes of characters -/

/-- A character that is a single byte. -/
def IsAscii (c : Char) : Prop :=
  c.toNat < 128

instance (c : Char) : Decidable (IsAscii c) :=
  inferInstanceAs (Decidable (c.toNat < 128))

theorem encode_cons
    (c : Char)
    (text : List Char) :
    encode (c :: text) = String.utf8EncodeChar c ++ encode text :=
  List.flatMap_cons

theorem encode_append
    (first second : List Char) :
    encode (first ++ second) = encode first ++ encode second :=
  List.flatMap_append

theorem utf8EncodeChar_of_isAscii
    {c : Char}
    (ascii : IsAscii c) :
    String.utf8EncodeChar c = [UInt8.ofNat c.toNat] := by
  have small : c.val.toNat ≤ 127 := Nat.le_of_lt_succ ascii
  simp only [String.utf8EncodeChar, if_pos small]
  rfl

theorem utf8Size_of_isAscii
    {c : Char}
    (ascii : IsAscii c) :
    c.utf8Size = 1 := by
  rw [← String.length_utf8EncodeChar, utf8EncodeChar_of_isAscii ascii]
  rfl

/-- The bytes of a character beyond ASCII are beyond ASCII. -/
theorem le_of_mem_utf8EncodeChar
    {c : Char}
    {byte : UInt8}
    (wide : ¬ IsAscii c)
    (member : byte ∈ String.utf8EncodeChar c) :
    128 ≤ byte.toNat := by
  have large : ¬ c.val.toNat ≤ 127 := fun small => wide (Nat.lt_succ_of_le small)
  have marked :
      ∀ {value mark size : Nat},
        128 ≤ mark → 0 < size → mark + size ≤ 256 →
          128 ≤ (UInt8.ofNat (value % size + mark)).toNat := by
    intro value mark size beyond positive fits
    have remainder := Nat.mod_lt value positive
    rw [UInt8.toNat_ofNat', Nat.mod_eq_of_lt (by omega)]
    omega
  simp only [String.utf8EncodeChar, if_neg large] at member
  split at member
  · rcases List.mem_pair.mp member with rfl | rfl
    · exact marked (by decide) (by decide) (by decide)
    · exact marked (by decide) (by decide) (by decide)
  · split at member
    · simp only [List.mem_cons, List.not_mem_nil, or_false] at member
      rcases member with rfl | rfl | rfl
      · exact marked (by decide) (by decide) (by decide)
      · exact marked (by decide) (by decide) (by decide)
      · exact marked (by decide) (by decide) (by decide)
    · simp only [List.mem_cons, List.not_mem_nil, or_false] at member
      rcases member with rfl | rfl | rfl | rfl
      · exact marked (by decide) (by decide) (by decide)
      · exact marked (by decide) (by decide) (by decide)
      · exact marked (by decide) (by decide) (by decide)
      · exact marked (by decide) (by decide) (by decide)

theorem utf8EncodeChar_ne_nil
    (c : Char) :
    String.utf8EncodeChar c ≠ [] := by
  intro isEmpty
  have length := String.length_utf8EncodeChar c
  rw [isEmpty] at length
  exact absurd length (Nat.ne_of_lt c.utf8Size_pos)

theorem length_encode
    (text : List Char) :
    (encode text).length = byteLength text := by
  induction text with
  | nil =>
      rfl
  | cons c text inductionHypothesis =>
      rw [encode_cons, List.length_append, String.length_utf8EncodeChar,
        inductionHypothesis, byteLength_cons]

/-- The bytes of a string are the UTF-8 form of its characters. -/
theorem ofString_eq
    (text : String) :
    ofString text = encode text.toList := by
  have form : text.toUTF8 = text.toList.utf8Encode := by
    rw [String.toUTF8_eq_toByteArray, ← String.toByteArray_ofList, String.ofList_toList]
  rw [ofString, form, List.utf8Encode, List.toList_data_toByteArray]
  rfl

@[simp] theorem ofString_ofList
    (text : List Char) :
    ofString (String.ofList text) = encode text := by
  rw [ofString_eq, String.toList_ofList]

/-! ### Classes -/

/-- A class of characters in ASCII and the class of their bytes. -/
structure Reads (bytes : UInt8 → Bool) (characters : Char → Bool) : Prop where
  bytesAscii : ∀ byte, bytes byte = true → byte.toNat < 128
  charactersAscii : ∀ c, characters c = true → IsAscii c
  same : ∀ c, IsAscii c → bytes (UInt8.ofNat c.toNat) = characters c

namespace Reads

variable {bytes : UInt8 → Bool}
variable {characters : Char → Bool}

theorem ofCodes
    (bytesAscii : ∀ code < 256, bytes (UInt8.ofNat code) = true → code < 128)
    (charactersAscii : ∀ c, characters c = true → IsAscii c)
    (same :
      ∀ code < 128, bytes (UInt8.ofNat code) = characters (Char.ofNat code)) :
    Reads bytes characters where
  bytesAscii := by
    intro byte inClass
    apply bytesAscii byte.toNat byte.toNat_lt
    rwa [UInt8.ofNat_toNat]
  charactersAscii := charactersAscii
  same := by
    intro c ascii
    rw [same c.toNat ascii, Char.ofNat_toNat]

/-- A character outside a class starts with a byte outside it. -/
theorem exists_byte
    {c : Char}
    (reads : Reads bytes characters)
    (outside : ¬ characters c = true) :
    ∃ byte others,
      String.utf8EncodeChar c = byte :: others ∧ ¬ bytes byte = true := by
  by_cases ascii : IsAscii c
  · refine ⟨UInt8.ofNat c.toNat, [], utf8EncodeChar_of_isAscii ascii, ?_⟩
    rwa [reads.same c ascii]
  · cases form : String.utf8EncodeChar c with
    | nil =>
        exact absurd form (utf8EncodeChar_ne_nil c)
    | cons byte others =>
        refine ⟨byte, others, rfl, ?_⟩
        intro inClass
        have beyond : 128 ≤ byte.toNat :=
          le_of_mem_utf8EncodeChar ascii (form ▸ List.mem_cons_self)
        exact absurd (reads.bytesAscii byte inClass) (Nat.not_lt.mpr beyond)

/-- A run of bytes ends where the run of characters does. -/
theorem runs_encode
    (reads : Reads bytes characters)
    (text : List Char) :
    (encode text).takeWhile bytes = encode (text.takeWhile characters) ∧
      (encode text).dropWhile bytes = encode (text.dropWhile characters) := by
  induction text with
  | nil =>
      exact ⟨rfl, rfl⟩
  | cons c text inductionHypothesis =>
      by_cases inside : characters c = true
      · have ascii := reads.charactersAscii c inside
        have same : bytes (UInt8.ofNat c.toNat) = true :=
          (reads.same c ascii).trans inside
        rw [encode_cons, utf8EncodeChar_of_isAscii ascii, List.singleton_append,
          List.takeWhile_cons_of_pos same, List.dropWhile_cons_of_pos same,
          List.takeWhile_cons_of_pos inside, List.dropWhile_cons_of_pos inside,
          encode_cons, utf8EncodeChar_of_isAscii ascii, inductionHypothesis.1,
          inductionHypothesis.2]
        exact ⟨rfl, rfl⟩
      · obtain ⟨byte, others, form, outside⟩ := reads.exists_byte inside
        rw [List.takeWhile_cons_of_neg inside, List.dropWhile_cons_of_neg inside,
          encode_cons, form, List.cons_append, List.takeWhile_cons_of_neg outside,
          List.dropWhile_cons_of_neg outside]
        exact ⟨rfl, rfl⟩

/-- In ASCII, as many bytes as characters are read. -/
theorem length_takeWhile
    (reads : Reads bytes characters)
    (text : List Char) :
    ((encode text).takeWhile bytes).length = (text.takeWhile characters).length := by
  rw [(reads.runs_encode text).1, length_encode]
  apply byteLength_eq_length
  intro c member
  exact utf8Size_of_isAscii
    (reads.charactersAscii c (List.mem_takeWhile_imp member))

end Reads

theorem isAscii_of_le
    {c limit : Char}
    (bounded : c.val ≤ limit.val)
    (ascii : IsAscii limit) :
    IsAscii c :=
  Nat.lt_of_le_of_lt (UInt32.le_iff_toNat_le.mp bounded) ascii

theorem reads_isBlank : Reads isBlank LayoutLexer.isBlank := by
  refine .ofCodes (by decide +kernel) ?_ (by decide +kernel)
  intro c blank
  simp only [LayoutLexer.isBlank, Bool.or_eq_true, beq_iff_eq] at blank
  rcases blank with rfl | rfl
  · decide
  · decide

theorem isAscii_of_isDigit
    {c : Char}
    (digit : c.isDigit = true) :
    IsAscii c := by
  simp only [Char.isDigit, Bool.and_eq_true, decide_eq_true_eq] at digit
  exact isAscii_of_le digit.2 (by decide)

theorem isAscii_of_isAlpha
    {c : Char}
    (letter : c.isAlpha = true) :
    IsAscii c := by
  have eitherCase : c.isUpper = true ∨ c.isLower = true := Bool.or_eq_true_iff.mp letter
  rcases eitherCase with upper | lower
  · exact isAscii_of_le (of_decide_eq_true upper).2 (by decide)
  · exact isAscii_of_le (of_decide_eq_true (Bool.and_eq_true_iff.mp lower).2) (by decide)

theorem reads_isDigit : Reads isDigit Char.isDigit :=
  .ofCodes (by decide +kernel) (fun _ digit => isAscii_of_isDigit digit)
    (by decide +kernel)

theorem reads_startsIdentifier :
    Reads startsIdentifier LayoutLexer.startsIdentifier := by
  refine .ofCodes (by decide +kernel) ?_ (by decide +kernel)
  intro c starts
  simp only [LayoutLexer.startsIdentifier, Bool.or_eq_true, beq_iff_eq] at starts
  rcases starts with letter | rfl
  · exact isAscii_of_isAlpha letter
  · decide

theorem reads_continuesIdentifier :
    Reads continuesIdentifier LayoutLexer.continuesIdentifier := by
  refine .ofCodes (by decide +kernel) ?_ (by decide +kernel)
  intro c continues
  simp only [LayoutLexer.continuesIdentifier, Char.isAlphanum, Bool.or_eq_true,
    beq_iff_eq] at continues
  rcases continues with (letter | digit) | rfl
  · exact isAscii_of_isAlpha letter
  · exact isAscii_of_isDigit digit
  · decide

/-- A single character of ASCII is a class. -/
theorem reads_character
    {c : Char}
    (ascii : IsAscii c) :
    Reads (· == UInt8.ofNat c.toNat) (· == c) where
  bytesAscii := by
    intro byte same
    rw [eq_of_beq same, UInt8.toNat_ofNat',
      Nat.mod_eq_of_lt (Nat.lt_trans ascii (by decide))]
    exact ascii
  charactersAscii := by
    intro other same
    rw [eq_of_beq same]
    exact ascii
  same := by
    intro other otherAscii
    rw [Bool.eq_iff_iff, beq_iff_eq, beq_iff_eq]
    constructor
    · intro sameByte
      have codes := congrArg UInt8.toNat sameByte
      rw [UInt8.toNat_ofNat', UInt8.toNat_ofNat',
        Nat.mod_eq_of_lt (Nat.lt_trans otherAscii (by decide)),
        Nat.mod_eq_of_lt (Nat.lt_trans ascii (by decide))] at codes
      exact Char.toNat_inj.mp codes
    · intro same
      rw [same]

/-! ### Runs and literals -/

section

variable (text : List Char)

theorem blankRun_encode : blankRun (encode text) = LayoutLexer.blankRun text :=
  reads_isBlank.length_takeWhile text

theorem digitRun_encode : digitRun (encode text) = LayoutLexer.digitRun text :=
  reads_isDigit.length_takeWhile text

theorem identifierRun_encode :
    identifierRun (encode text) = LayoutLexer.identifierRun text := by
  cases text with
  | nil =>
      rfl
  | cons c rest =>
      rw [LayoutLexer.identifierRun]
      by_cases starts : LayoutLexer.startsIdentifier c = true
      · have ascii := reads_startsIdentifier.charactersAscii c starts
        have sameClass := reads_startsIdentifier.same c ascii
        rw [encode_cons, utf8EncodeChar_of_isAscii ascii, List.singleton_append,
          identifierRun, sameClass, if_pos starts, if_pos starts,
          reads_continuesIdentifier.length_takeWhile]
      · obtain ⟨byte, others, form, outside⟩ :=
          reads_startsIdentifier.exists_byte starts
        rw [encode_cons, form, List.cons_append, identifierRun, if_neg outside,
          if_neg starts]

/-- A literal of ASCII starts the bytes of a text if it starts the text. -/
theorem isPrefixOf_encode
    {spelling : List Char}
    (ascii : ∀ c ∈ spelling, IsAscii c) :
    (encode spelling).isPrefixOf (encode text) = spelling.isPrefixOf text := by
  induction spelling generalizing text with
  | nil =>
      rfl
  | cons c spelling inductionHypothesis =>
      obtain ⟨asciiFirst, asciiOthers⟩ := List.forall_mem_cons.mp ascii
      rw [encode_cons, utf8EncodeChar_of_isAscii asciiFirst, List.singleton_append]
      cases text with
      | nil =>
          rfl
      | cons other text =>
          by_cases same : other = c
          · rw [same, encode_cons, utf8EncodeChar_of_isAscii asciiFirst,
              List.singleton_append]
            simp [inductionHypothesis text asciiOthers]
          · obtain ⟨byte, others, form, outside⟩ :=
              (reads_character asciiFirst).exists_byte (by simpa using same)
            have differs : UInt8.ofNat c.toNat ≠ byte := by
              intro sameByte
              exact outside (by simp [sameByte])
            rw [encode_cons, form, List.cons_append, List.isPrefixOf,
              List.isPrefixOf, beq_eq_false_iff_ne.mpr differs,
              beq_eq_false_iff_ne.mpr (Ne.symm same)]
            rfl

theorem terminatorLength?_encode :
    terminatorLength? (encode text) = LayoutLexer.terminatorLength? text := by
  have feed : (encode ['\n']).isPrefixOf (encode text) = ['\n'].isPrefixOf text :=
    isPrefixOf_encode text (List.forall_mem_singleton.mpr (by decide))
  have returnFeed :
      (encode ['\r', '\n']).isPrefixOf (encode text) =
        ['\r', '\n'].isPrefixOf text :=
    isPrefixOf_encode text
      (List.forall_mem_cons.mpr
        ⟨by decide, List.forall_mem_singleton.mpr (by decide)⟩)
  have feedBytes : encode ['\n'] = [0x0A] := by
    decide
  have returnFeedBytes : encode ['\r', '\n'] = [0x0D, 0x0A] := by
    decide
  rw [feedBytes] at feed
  rw [returnFeedBytes] at returnFeed
  rw [terminatorLength?, feed, returnFeed]
  split
  · rename_i starts
    obtain ⟨rest, rfl⟩ := List.isPrefixOf_iff_prefix.mp starts
    rfl
  · rename_i noFeed
    split
    · rename_i starts
      obtain ⟨rest, rfl⟩ := List.isPrefixOf_iff_prefix.mp starts
      rfl
    · rename_i noReturnFeed
      symm
      rw [LayoutLexer.terminatorLength?.eq_def]
      split
      · exact absurd rfl noFeed
      · exact absurd rfl noReturnFeed
      · rfl

/-- What stands behind the digits is found at the length of their run. -/
theorem drop_digitRun
    (bytes : List UInt8) :
    bytes.drop (digitRun bytes) = bytes.dropWhile isDigit :=
  calc
    bytes.drop (digitRun bytes) =
        (bytes.takeWhile isDigit ++ bytes.dropWhile isDigit).drop
          (digitRun bytes) := by
      rw [List.takeWhile_append_dropWhile]
    _ = bytes.dropWhile isDigit :=
      List.drop_left

end

/-! ### Single characters -/

/-- The byte of a character of ASCII is in the form of no other character. -/
theorem mem_utf8EncodeChar_iff
    {c other : Char}
    (ascii : IsAscii c) :
    UInt8.ofNat c.toNat ∈ String.utf8EncodeChar other ↔ other = c := by
  constructor
  · intro member
    by_cases otherAscii : IsAscii other
    · rw [utf8EncodeChar_of_isAscii otherAscii, List.mem_singleton] at member
      have same := (reads_character ascii).same other otherAscii
      rw [member, beq_self_eq_true] at same
      exact eq_of_beq same.symm
    · have beyond := le_of_mem_utf8EncodeChar otherAscii member
      have byteAscii :=
        (reads_character ascii).bytesAscii (UInt8.ofNat c.toNat) (beq_self_eq_true _)
      exact absurd byteAscii (Nat.not_lt.mpr beyond)
  · intro same
    rw [same, utf8EncodeChar_of_isAscii ascii]
    exact List.mem_singleton_self _

theorem mem_encode_iff
    {c : Char}
    (ascii : IsAscii c)
    (text : List Char) :
    UInt8.ofNat c.toNat ∈ encode text ↔ c ∈ text := by
  simp only [encode, List.mem_flatMap, mem_utf8EncodeChar_iff ascii]
  simp

/-- The last byte of a text is that of a character of ASCII if the last one is. -/
theorem getLast?_encode_iff
    {c : Char}
    (ascii : IsAscii c)
    (text : List Char) :
    (encode text).getLast? = some (UInt8.ofNat c.toNat) ↔
      text.getLast? = some c := by
  rcases List.eq_nil_or_concat' text with isEmpty | ⟨init, last, shape⟩
  · simp [isEmpty, encode]
  · have lastBytes : encode [last] = String.utf8EncodeChar last := by
      simp [encode]
    rw [shape, encode_append, lastBytes, List.getLast?_concat,
      List.getLast?_append_of_ne_nil _ (utf8EncodeChar_ne_nil last), Option.some_inj]
    constructor
    · intro isLast
      exact (mem_utf8EncodeChar_iff ascii).mp (List.mem_of_getLast? isLast)
    · intro same
      rw [same, utf8EncodeChar_of_isAscii ascii]
      rfl

/-- A text without a line feed has no byte of one. -/
theorem lineFeed_not_mem_encode
    {text : List Char}
    (noFeed : '\n' ∉ text) :
    (0x0A : UInt8) ∉ encode text :=
  fun member => noFeed ((mem_encode_iff (c := '\n') (by decide) text).mp member)

/-- The first line feed is found behind the bytes of what stands before it. -/
theorem idxOf?_encode_lineFeed
    {before : List Char}
    (noFeed : '\n' ∉ before)
    (after : List Char) :
    (encode (before ++ '\n' :: after)).idxOf? 0x0A = some (byteLength before) := by
  have form :
      encode (before ++ '\n' :: after) = encode before ++ 0x0A :: encode after := by
    rw [encode_append]
    rfl
  have notBefore : (encode before).findIdx? (· == 0x0A) = none := by
    rw [List.findIdx?_eq_none_iff]
    intro byte member
    rw [beq_eq_false_iff_ne]
    exact fun isFeed => lineFeed_not_mem_encode noFeed (isFeed ▸ member)
  rw [form, ← length_encode, List.idxOf?, List.findIdx?_append, notBefore]
  simp [List.findIdx?_cons]

theorem idxOf?_encode_eq_none
    {text : List Char}
    (noFeed : '\n' ∉ text) :
    (encode text).idxOf? 0x0A = none :=
  List.idxOf?_eq_none_iff.mpr (lineFeed_not_mem_encode noFeed)

end Bytes

end LayoutLexer
