import LayoutLexer.Proofs.QuotedReading
import LayoutLexer.Text.Json

namespace LayoutLexer.Text.Json

/-!
# Reading JSON

The reader takes any JSON text: every kind of value, nested to any depth, numbers
with fractions and exponents, strings with all escapes and surrogate pairs, and
blanks wherever they may stand. It takes nothing else: no leading zeros, no
control characters or halves of surrogate pairs in strings, no commas in front of
a closing bracket, and no text behind the value.

Items between brackets, be they values or members, are read by one loop. What is
written as an item, in front of a comma or a line end, is read as one; so records
are read back in whole (`read_array`).
-/

/-- A value as the reader sees it; members keep their order. -/
inductive Value where
  | null
  | boolean (value : Bool)
  | number (value : Rat)
  | string (text : String)
  | array (elements : List Value)
  | object (members : List (String × Value))

/-! ### Blanks and words -/

/-- Whether a character may stand anywhere between two parts of a value. -/
def isBlank (c : Char) : Bool :=
  c = ' ' || c = '\t' || c = '\n' || c = '\r'

/-- The text from its first character on that is no blank. -/
def skipBlanks (text : List Char) : List Char :=
  text.dropWhile isBlank

/-- What stands behind a word that is spelled out. -/
def readWord (word : String) (text : List Char) : Option (List Char) :=
  if word.toList.isPrefixOf text then
    some (text.drop word.length)
  else
    none

/-! ### Strings -/

/-- The code unit in four hexadecimal digits. -/
def codeUnit? (text : List Char) : Option Nat :=
  if 4 ≤ text.length then
    hexNumber? (text.take 4)
  else
    none

/--
The character that a code unit in front of a text stands for, and how much of the
text belongs to it. Code points beyond the first plane take two units.
-/
def pair? (unit : Nat) (text : List Char) : Option (Char × Nat) :=
  if unit < 0xD800 ∨ 0xDFFF < unit then
    some (Char.ofNat unit, 0)
  else
    match text with
    | '\\' :: 'u' :: rest =>
        match codeUnit? rest with
        | none =>
            none
        | some low =>
            if unit < 0xDC00 ∧ 0xDC00 ≤ low ∧ low ≤ 0xDFFF then
              some (Char.ofNat
                (0x10000 + (unit - 0xD800) * 0x400 + (low - 0xDC00)), 6)
            else
              none
    | _ =>
        none

/-- The codes in strings. -/
def escape? : List Char → Option (Char × Nat)
  | '"' :: _ => some ('"', 1)
  | '\\' :: _ => some ('\\', 1)
  | '/' :: _ => some ('/', 1)
  | 'b' :: _ => some ('\x08', 1)
  | 'f' :: _ => some ('\x0c', 1)
  | 'n' :: _ => some ('\n', 1)
  | 'r' :: _ => some ('\r', 1)
  | 't' :: _ => some ('\t', 1)
  | 'u' :: rest => do
      let unit ← codeUnit? rest
      let (meant, length) ← pair? unit (rest.drop 4)
      some (meant, 5 + length)
  | _ => none

/-- Whether a character may stand for itself. -/
def isPlain (c : Char) : Bool :=
  0x20 ≤ c.toNat

/-- Read a string behind its opening quotation mark. -/
def readString (text : List Char) : Option (String × List Char) :=
  (unquote escape? isPlain text).map fun read => (String.ofList read.1, read.2)

example : readString "\\ud834\\udd1e\\/\",".toList = some ("𝄞/", [',']) := by
  decide +kernel

/-! ### Numbers -/

/-- Read digits, at least one. -/
def readDigits (text : List Char) : Option (List Char × List Char) :=
  match text.takeWhile Char.isDigit with
  | [] => none
  | digits => some (digits, text.dropWhile Char.isDigit)

/-- Read digits, of which the first is zero only if it is the only one. -/
def readWhole (text : List Char) : Option (List Char × List Char) :=
  match readDigits text with
  | some ('0' :: _ :: _, _) => none
  | read => read

/-- Read the digits behind a point, if there is one. -/
def readFraction : List Char → Option (List Char × List Char)
  | '.' :: rest => readDigits rest
  | text => some ([], text)

/-- Read a power of ten, if there is one. -/
def readExponent : List Char → Option (Int × List Char)
  | 'e' :: rest => readPower rest
  | 'E' :: rest => readPower rest
  | text => some (0, text)
where
  readPower : List Char → Option (Int × List Char)
    | '-' :: rest =>
        (readDigits rest).map fun read =>
          (-(Nat.ofDigitChars 10 read.1 0 : Int), read.2)
    | '+' :: rest =>
        (readDigits rest).map fun read => (Nat.ofDigitChars 10 read.1 0, read.2)
    | text =>
        (readDigits text).map fun read => (Nat.ofDigitChars 10 read.1 0, read.2)

/-- Read a number without a sign. -/
def readUnsigned (text : List Char) : Option (Rat × List Char) := do
  let (whole, behindWhole) ← readWhole text
  let (fraction, behindFraction) ← readFraction behindWhole
  let (exponent, rest) ← readExponent behindFraction
  let power : Int := exponent - fraction.length
  some (.ofScientific (Nat.ofDigitChars 10 (whole ++ fraction) 0)
    (power < 0) power.natAbs, rest)

/-- Read a number. -/
def readNumber : List Char → Option (Rat × List Char)
  | '-' :: rest => (readUnsigned rest).map fun read => (-read.1, read.2)
  | text => readUnsigned text

example : readNumber "-0.25e+1,".toList = some (-5 / 2, [',']) := by
  decide +kernel

/-! ### Values -/

section

variable {Item : Type}

/-- Read items with commas between them, up to the closing bracket. -/
def readSequence
    (readItem : List Char → Option (Item × List Char))
    (closing : Char)
    (text : List Char) :
    Option (List Item × List Char) :=
  match readItem text with
  | none =>
      none
  | some (item, behindItem) =>
      match skipBlanks behindItem with
      | [] =>
          none
      | c :: rest =>
          if c = closing then
            some ([item], rest)
          -- Items that take up no text would be read for ever.
          else if c = ',' ∧ rest.length < text.length then
            (readSequence readItem closing rest).map fun read =>
              (item :: read.1, read.2)
          else
            none
termination_by text.length

/-- Read what stands between two brackets, behind the first of them. -/
def readItems
    (readItem : List Char → Option (Item × List Char))
    (closing : Char)
    (text : List Char) :
    Option (List Item × List Char) :=
  match skipBlanks text with
  | [] =>
      none
  | c :: rest =>
      if c = closing then
        some ([], rest)
      else
        readSequence readItem closing text

end

/-- Read a member of an object. -/
def readMember
    (readValue : List Char → Option (Value × List Char))
    (text : List Char) :
    Option ((String × Value) × List Char) :=
  match skipBlanks text with
  | '"' :: marked => do
      let (name, behindName) ← readString marked
      match skipBlanks behindName with
      | ':' :: behindColon => do
          let (value, rest) ← readValue behindColon
          some ((name, value), rest)
      | _ => none
  | _ => none

/-- Read a value that is nested to at most some number of levels. -/
def readValue : Nat → List Char → Option (Value × List Char)
  | 0, _ =>
      none
  | levels + 1, text =>
      match skipBlanks text with
      | [] =>
          none
      | c :: rest =>
          if c = '-' || c.isDigit then
            (readNumber (c :: rest)).map fun read => (.number read.1, read.2)
          else
            match c with
            | '"' =>
                (readString rest).map fun read => (.string read.1, read.2)
            | '[' =>
                (readItems (readValue levels) ']' rest).map fun read =>
                  (.array read.1, read.2)
            | '\x7b' =>
                (readItems (readMember (readValue levels)) '\x7d' rest).map
                  fun read => (.object read.1, read.2)
            | 'n' =>
                (readWord "ull" rest).map fun rest => (.null, rest)
            | 't' =>
                (readWord "rue" rest).map fun rest => (.boolean true, rest)
            | 'f' =>
                (readWord "alse" rest).map fun rest => (.boolean false, rest)
            | _ =>
                none

/-- The value of a JSON text; no text is nested deeper than it is long. -/
def read (text : String) : Option Value :=
  match readValue text.length text.toList with
  | none => none
  | some (value, rest) => if skipBlanks rest = [] then some value else none

-- A comma has to be followed by an item.
example : read "[1,]" = none := by
  decide +kernel

/-! ### What is written is read -/

/-- A character that has no name of its own is read back from its code. -/
theorem codeUnit?_codeEscape
    {c : Char}
    (isControl : c.toNat < 0x20)
    (rest : List Char) :
    codeUnit?
        ('0' :: '0' :: Nat.digitChar (c.toNat / 16) ::
          Nat.digitChar (c.toNat % 16) :: rest) =
      some c.toNat := by
  have zeros : hexNumber? ['0', '0'] = some 0 := by
    decide
  have leading :
      hexNumber? (['0', '0'] ++ [Nat.digitChar (c.toNat / 16)]) =
        some (16 * 0 + c.toNat / 16) :=
    hexNumber?_concat zeros (by omega)
  have digits :=
    hexNumber?_concat leading (Nat.mod_lt c.toNat (by decide : 0 < 16))
  have value : 16 * (16 * 0 + c.toNat / 16) + c.toNat % 16 = c.toNat := by
    omega
  rw [value] at digits
  simpa [codeUnit?] using digits

/-- In a string, every character can be read back. -/
theorem writes_escaped
    (c : Char) :
    Writes escape? isPlain c (escaped c) := by
  unfold escaped
  split_ifs with isMark isBackslash isBackspace isTab isFeed isFormFeed isReturn
    isControl
  · exact .letter isMark fun _ => rfl
  · exact .letter isBackslash fun _ => rfl
  · exact .letter isBackspace fun _ => rfl
  · exact .letter isTab fun _ => rfl
  · exact .letter isFeed fun _ => rfl
  · exact .letter isFormFeed fun _ => rfl
  · exact .letter isReturn fun _ => rfl
  · refine .escaped fun rest => ?_
    have inFirstPlane : c.toNat < 0xD800 ∨ 0xDFFF < c.toNat := by
      omega
    simp [escape?, codeUnit?_codeEscape isControl rest, pair?, inFirstPlane]
  · exact .itself isMark isBackslash (by simpa [isPlain] using isControl)

/-- A string is read back, whatever stands behind it. -/
theorem readString_string
    (text : String)
    (rest : List Char) :
    readString (text.toList.flatMap escaped ++ '"' :: rest) =
      some (text, rest) := by
  rw [readString, unquote_flatMap writes_escaped]
  simp

theorem skipBlanks_append
    {blanks : List Char}
    (blank : ∀ c ∈ blanks, isBlank c = true)
    (rest : List Char) :
    skipBlanks (blanks ++ rest) = skipBlanks rest :=
  List.dropWhile_append_of_pos blank

theorem skipBlanks_cons_of_not_blank
    {c : Char}
    (notBlank : isBlank c = false)
    (rest : List Char) :
    skipBlanks (c :: rest) = c :: rest :=
  List.dropWhile_cons_of_neg (by simp [notBlank])

/-- What stands behind an item: a comma or the end of the line. -/
inductive EndsItem : List Char → Prop where
  | comma (rest : List Char) : EndsItem (',' :: rest)
  | lineEnd (rest : List Char) : EndsItem ('\n' :: rest)

/-- A number starts with a digit. -/
theorem exists_toDigits_eq_cons
    (number : Nat) :
    ∃ digit digits,
      Nat.toDigits 10 number = digit :: digits ∧ digit.isDigit = true := by
  cases written : Nat.toDigits 10 number with
  | nil =>
      exact absurd written Nat.toDigits_ne_nil
  | cons digit digits =>
      have member : digit ∈ Nat.toDigits 10 number := by
        rw [written]
        exact List.mem_cons_self
      exact ⟨digit, digits, rfl, isDigit_of_mem_toDigits digit member⟩

/-- Only the number zero is written with a zero in front. -/
theorem toDigits_ne_zero_cons
    (number : Nat)
    (digit : Char)
    (digits : List Char) :
    Nat.toDigits 10 number ≠ '0' :: digit :: digits := by
  induction number using Nat.strongRecOn generalizing digit digits with
  | ind number inductionHypothesis =>
      intro written
      rw [Nat.toDigits_eq_if (by decide)] at written
      by_cases single : number < 10
      · simp [if_pos single] at written
      · rw [if_neg single] at written
        cases leading : Nat.toDigits 10 (number / 10) with
        | nil =>
            exact Nat.toDigits_ne_nil leading
        | cons first others =>
            rw [leading, List.cons_append, List.cons.injEq] at written
            obtain ⟨rfl, -⟩ := written
            cases others with
            | nil =>
                have isZero := decimal?_toDigits (number / 10)
                rw [leading] at isZero
                have zero : 0 = number / 10 := Option.some.inj isZero
                omega
            | cons second others =>
                exact inductionHypothesis (number / 10) (by omega) second others
                  leading

/-- The digits of a number are read as far as they go. -/
theorem readDigits_toDigits
    (number : Nat)
    {rest : List Char}
    (ends : EndsItem rest) :
    readDigits (Nat.toDigits 10 number ++ rest) =
      some (Nat.toDigits 10 number, rest) := by
  have noMoreDigits :
      rest.takeWhile Char.isDigit = [] ∧ rest.dropWhile Char.isDigit = rest := by
    cases ends <;> exact ⟨rfl, rfl⟩
  rw [readDigits, List.takeWhile_append_of_pos isDigit_of_mem_toDigits,
    List.dropWhile_append_of_pos isDigit_of_mem_toDigits, noMoreDigits.1,
    noMoreDigits.2, List.append_nil]
  split
  · rename_i noDigits
    exact absurd noDigits Nat.toDigits_ne_nil
  · rfl

theorem readWhole_toDigits
    (number : Nat)
    {rest : List Char}
    (ends : EndsItem rest) :
    readWhole (Nat.toDigits 10 number ++ rest) =
      some (Nat.toDigits 10 number, rest) := by
  rw [readWhole, readDigits_toDigits number ends]
  split
  · rename_i written
    exact absurd (congrArg Prod.fst (Option.some.inj written))
      (toDigits_ne_zero_cons number _ _)
  · rfl

/-- A number is read back. -/
theorem readNumber_toDigits
    (number : Nat)
    {rest : List Char}
    (ends : EndsItem rest) :
    readNumber (Nat.toDigits 10 number ++ rest) =
      some ((number : Rat), rest) := by
  have noFraction : readFraction rest = some ([], rest) := by
    cases ends <;> rfl
  have noExponent : readExponent rest = some (0, rest) := by
    cases ends <;> rfl
  have unsigned :
      readUnsigned (Nat.toDigits 10 number ++ rest) =
        some ((number : Rat), rest) := by
    simp [readUnsigned, readWhole_toDigits number ends, noFraction, noExponent,
      Nat.ofDigitChars_ten_toDigits, Rat.ofScientific_false_def]
  rw [readNumber.eq_def]
  split
  · rename_i negative
    obtain ⟨digit, digits, written, isDigit⟩ := exists_toDigits_eq_cons number
    rw [written, List.cons_append, List.cons.injEq] at negative
    rw [negative.1] at isDigit
    exact absurd isDigit (by decide)
  · exact unsigned

/-! ### Records -/

/-- The value of a field. -/
def Value.ofField : FieldValue → Value
  | .number value => .number value
  | .text text => .string text

/-- The object that a record stands for. -/
def Value.ofRecord (fields : Fields) : Value :=
  .object (fields.map fun field => (field.1, .ofField field.2))

theorem toList_string
    (text : String) :
    (string text).toList = '"' :: (text.toList.flatMap escaped ++ ['"']) := by
  simp [string]

/-- A field is read back from behind the colon. -/
theorem readValue_value
    (levels : Nat)
    (field : FieldValue)
    {rest : List Char}
    (ends : EndsItem rest) :
    readValue (levels + 1) (' ' :: ((value field).toList ++ rest)) =
      some (.ofField field, rest) := by
  have space : ∀ c ∈ [' '], isBlank c = true := by
    simp [isBlank]
  rw [← List.singleton_append, readValue, skipBlanks_append space]
  cases field with
  | number number =>
      obtain ⟨digit, digits, written, isDigit⟩ := exists_toDigits_eq_cons number
      have notBlank : isBlank digit = false := by
        simp only [isBlank, Bool.or_eq_false_iff, decide_eq_false_iff_not]
        refine ⟨⟨⟨?_, ?_⟩, ?_⟩, ?_⟩ <;> rintro rfl <;>
          exact absurd isDigit (by decide)
      have read := readNumber_toDigits number ends
      rw [written, List.cons_append] at read
      rw [value, Nat.toString_eq_ofList_toDigits, String.toList_ofList, written,
        List.cons_append, skipBlanks_cons_of_not_blank notBlank]
      simp [isDigit, read, Value.ofField]
  | text text =>
      rw [value, toList_string, List.cons_append, List.append_assoc,
        skipBlanks_cons_of_not_blank (by decide)]
      simp [readString_string, Value.ofField]

section

variable {Source Item : Type}

/-- Items are written in a way in which they can be read back, line by line. -/
structure Rereads
    (readItem : List Char → Option (Item × List Char))
    (closing : Char)
    (write : Source → String)
    (meant : Source → Item) :
    Prop where
  isMark : isBlank closing = false ∧ ',' ≠ closing
  starts :
    ∀ source rest, ∃ c behind,
      skipBlanks ('\n' :: ((write source).toList ++ rest)) = c :: behind ∧
        c ≠ closing
  reads :
    ∀ source rest,
      EndsItem rest →
        readItem ('\n' :: ((write source).toList ++ rest)) =
          some (meant source, rest)

variable {readItem : List Char → Option (Item × List Char)}
variable {closing : Char}
variable {write : Source → String}
variable {meant : Source → Item}

/-- The text of several items starts with the first of them. -/
theorem toList_intercalate_cons_cons
    (first second : Source)
    (others : List Source)
    (rest : List Char) :
    (",\n".intercalate ((first :: second :: others).map write)).toList ++ rest =
      (write first).toList ++ ',' :: '\n' ::
        ((",\n".intercalate ((second :: others).map write)).toList ++ rest) := by
  simp [String.intercalate_cons_cons]

/-- Items on lines of their own are read back one by one. -/
theorem Rereads.readSequence_intercalate
    (rereads : Rereads readItem closing write meant)
    {indentation : List Char}
    (blank : ∀ c ∈ '\n' :: indentation, isBlank c = true)
    (first : Source)
    (others : List Source)
    (rest : List Char) :
    readSequence readItem closing
        ('\n' :: ((",\n".intercalate ((first :: others).map write)).toList ++
          '\n' :: (indentation ++ closing :: rest))) =
      some ((first :: others).map meant, rest) := by
  induction others generalizing first with
  | nil =>
      have behind :
          skipBlanks ('\n' :: (indentation ++ closing :: rest)) =
            closing :: rest := by
        rw [← List.cons_append, skipBlanks_append blank,
          skipBlanks_cons_of_not_blank rereads.isMark.1]
      rw [List.map_singleton, String.intercalate_singleton, readSequence,
        rereads.reads first _ (.lineEnd _)]
      simp only [behind, if_pos]
      rfl
  | cons second others inductionHypothesis =>
      rw [toList_intercalate_cons_cons, readSequence,
        rereads.reads first _ (.comma _)]
      simp only [skipBlanks_cons_of_not_blank (by decide : isBlank ',' = false)]
      rw [if_neg rereads.isMark.2, if_pos, inductionHypothesis second]
      · rfl
      · simp only [List.length_cons, List.length_append, true_and]
        omega

/-- What stands between two brackets is read back. -/
theorem Rereads.readItems_intercalate
    (rereads : Rereads readItem closing write meant)
    {indentation : List Char}
    (blank : ∀ c ∈ '\n' :: indentation, isBlank c = true)
    (first : Source)
    (others : List Source)
    (rest : List Char) :
    readItems readItem closing
        ('\n' :: ((",\n".intercalate ((first :: others).map write)).toList ++
          '\n' :: (indentation ++ closing :: rest))) =
      some ((first :: others).map meant, rest) := by
  have starts : ∃ c behind,
      skipBlanks
          ('\n' :: ((",\n".intercalate ((first :: others).map write)).toList ++
            '\n' :: (indentation ++ closing :: rest))) =
        c :: behind ∧ c ≠ closing := by
    cases others with
    | nil =>
        simpa using rereads.starts first _
    | cons second others =>
        rw [toList_intercalate_cons_cons]
        exact rereads.starts first _
  obtain ⟨c, behind, skipped, noMark⟩ := starts
  rw [readItems, skipped]
  simp only [if_neg noMark]
  exact rereads.readSequence_intercalate blank first others rest

end

/-- A member starts with the quotation mark of its name. -/
theorem skipBlanks_member
    (field : String × FieldValue)
    (rest : List Char) :
    skipBlanks ('\n' :: ((member field).toList ++ rest)) =
      '"' :: (field.1.toList.flatMap escaped ++
        '"' :: ':' :: ' ' :: ((value field.2).toList ++ rest)) := by
  have indentation : ∀ c ∈ ['\n', ' ', ' ', ' ', ' '], isBlank c = true := by
    simp [isBlank]
  have written :
      '\n' :: ((member field).toList ++ rest) =
        ['\n', ' ', ' ', ' ', ' '] ++ '"' :: (field.1.toList.flatMap escaped ++
          '"' :: ':' :: ' ' :: ((value field.2).toList ++ rest)) := by
    simp [member, toList_string]
  rw [written, skipBlanks_append indentation,
    skipBlanks_cons_of_not_blank (by decide)]

/-- Members are read back, if fields are read as values. -/
theorem rereads_member
    (levels : Nat) :
    Rereads (readMember (readValue (levels + 1))) '\x7d' member fun field =>
      (field.1, .ofField field.2) where
  isMark := by
    decide
  starts field rest := by
    exact ⟨_, _, skipBlanks_member field rest, by decide⟩
  reads field rest ends := by
    rw [readMember, skipBlanks_member]
    simp only [readString_string, Option.bind_some, bind]
    rw [skipBlanks_cons_of_not_blank (by decide)]
    simp only [readValue_value levels field.2 ends, Option.bind_some]

/-- Behind the opening bracket of an object, its members are read back. -/
theorem exists_skipBlanks_object
    (levels : Nat)
    (fields : Fields)
    (rest : List Char) :
    ∃ behind,
      skipBlanks ('\n' :: ((object fields).toList ++ rest)) = '\x7b' :: behind ∧
        readItems (readMember (readValue (levels + 1))) '\x7d' behind =
          some (fields.map fun field => (field.1, .ofField field.2), rest) := by
  cases fields with
  | nil =>
      exact ⟨'\x7d' :: rest, rfl, rfl⟩
  | cons field fields =>
      have blank : ∀ c ∈ '\n' :: [' ', ' '], isBlank c = true := by
        simp [isBlank]
      have members :=
        (rereads_member levels).readItems_intercalate blank field fields rest
      refine ⟨_, ?_, members⟩
      simp [object, skipBlanks, isBlank]

/-- Objects are read back. -/
theorem rereads_object
    (levels : Nat) :
    Rereads (readValue (levels + 2)) ']' object .ofRecord where
  isMark := by
    decide
  starts fields rest := by
    obtain ⟨behind, opened, -⟩ := exists_skipBlanks_object levels fields rest
    exact ⟨_, _, opened, by decide⟩
  reads fields rest _ := by
    obtain ⟨behind, opened, members⟩ := exists_skipBlanks_object levels fields rest
    rw [readValue, opened]
    simp [members, Value.ofRecord]

/-- Records are read back. -/
theorem read_array
    (records : List Fields) :
    read (array records) = some (.array (records.map .ofRecord)) := by
  cases records with
  | nil =>
      rfl
  | cons record records =>
      have written :
          (array (record :: records)).toList =
            '[' :: '\n' ::
              ((",\n".intercalate ((record :: records).map object)).toList ++
                '\n' :: ([] ++ ']' :: [])) := by
        simp [array]
      obtain ⟨levels, deep⟩ :
          ∃ levels, (array (record :: records)).length = levels + 3 := by
        refine ⟨(array (record :: records)).length - 3, ?_⟩
        have length := congrArg List.length written
        rw [String.length_toList] at length
        simp only [List.length_cons, List.length_append] at length
        omega
      have lineEnd : ∀ c ∈ '\n' :: [], isBlank c = true := by
        simp [isBlank]
      have objects :=
        (rereads_object levels).readItems_intercalate lineEnd record records []
      have value :
          readValue (levels + 3) (array (record :: records)).toList =
            some (.array ((record :: records).map .ofRecord), []) := by
        have noNumber : ¬('[' = '-' || '['.isDigit) := by
          decide
        rw [written, readValue, skipBlanks_cons_of_not_blank (by decide)]
        simp only [if_neg noNumber, objects, Option.map_some]
      rw [read, deep, value]
      rfl

end LayoutLexer.Text.Json
