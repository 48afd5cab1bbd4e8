import LayoutLexer.Proofs.Reading

namespace LayoutLexer

/-!
# Reading under a cap

A file states its size before it is read, and standard input is read up to one
byte beyond the greatest size. Both ways come to the same: bytes are a source if
they are not too many and encode a text, and otherwise they are refused for the
same reason.

There is a byte beyond every cap but the greatest 64-bit number. Its successor
is zero, so that nothing is read under it, and every stream passes for the empty
text.
-/

/-! ### One byte beyond a cap -/

/-- There is a byte beyond every maximum but the greatest. -/
theorem add_one_lt_size
    {max : UInt64}
    (below : max.toNat ≠ UInt64.size - 1) :
    max.toNat + 1 < UInt64.size := by
  have small := UInt64.toNat_lt_size max
  omega

/-- A stream is read alike as long as its first bytes are the same. -/
theorem readCapped_congr
    {name : String}
    {bytes other : ByteArray}
    {max : UInt64}
    (bounded : max.toNat + 1 < UInt64.size)
    (same :
      other.extract 0 (max.toNat + 1) = bytes.extract 0 (max.toNat + 1)) :
    readCapped name other max = readCapped name bytes max := by
  have first :
      ∀ stream : ByteArray,
        firstBytes stream (max + 1).toNat =
          stream.extract 0 (max.toNat + 1) := by
    intro stream
    -- The one is cut at the end of the stream, the other may ask for more.
    rw [toNat_add_one bounded, firstBytes, ByteArray.ext_iff,
      ByteArray.data_extract, ByteArray.data_extract,
      Array.extract_eq_extract_right]
    simp [ByteArray.size_data]
  rw [readCapped, readCapped, first, first, same]

/-! ### What comes of bytes -/

/-- The reason of an input error, apart from what it reports of the source. -/
inductive InputError.Reason where
  | access
  | tooLarge
  | read
  deriving Repr, DecidableEq

/-- Why there is no source text. -/
def InputError.reason : InputError → InputError.Reason
  | .access _ _ => .access
  | .tooLarge _ _ _ => .tooLarge
  | .read _ _ => .read

/-- Bytes decode to nothing if they encode no text. -/
theorem fromUTF8?_eq_none_iff
    {bytes : ByteArray} :
    String.fromUTF8? bytes = none ↔ ¬bytes.IsValidUTF8 := by
  simp [String.fromUTF8?]

/-- Bytes are valid if some text is encoded as them. -/
theorem exists_toUTF8_eq_iff
    {bytes : ByteArray} :
    (∃ source : String, source.toUTF8 = bytes) ↔ bytes.IsValidUTF8 := by
  constructor
  · rintro ⟨source, rfl⟩
    exact source.isValidUTF8
  · intro valid
    exact ⟨String.fromUTF8 bytes valid, rfl⟩

section

variable {name : String}
variable {bytes : ByteArray}
variable {max size : Nat}
variable {fault : ReadFault}

/-- Too many bytes are refused, whatever they are. -/
theorem readBytes_eq_tooLarge_iff :
    readBytes name bytes max size fault = .error (.tooLarge name size max) ↔
      max < bytes.size := by
  rw [readBytes]
  by_cases tooMany : max < bytes.size
  · simp [tooMany]
  · cases String.fromUTF8? bytes <;> simp [tooMany]

/-- Bytes that are not too many are refused if they encode no text. -/
theorem exists_readBytes_eq_read_iff :
    (∃ found, readBytes name bytes max size fault = .error (.read name found)) ↔
      bytes.size ≤ max ∧ ¬bytes.IsValidUTF8 := by
  rw [readBytes, ← fromUTF8?_eq_none_iff]
  by_cases tooMany : max < bytes.size
  · simp [tooMany, Nat.not_le_of_lt tooMany]
  · cases String.fromUTF8? bytes <;> simp [tooMany, Nat.le_of_not_lt tooMany]

/-- Bytes are refused for no other reason. -/
theorem exists_readBytes_eq_error_iff :
    (∃ error, readBytes name bytes max size fault = .error error) ↔
      max < bytes.size ∨ ¬bytes.IsValidUTF8 := by
  rw [readBytes, ← fromUTF8?_eq_none_iff]
  by_cases tooMany : max < bytes.size
  · simp [tooMany]
  · cases String.fromUTF8? bytes <;> simp [tooMany]

/-- Bytes come to the same wherever they are from, but for what is reported. -/
theorem mapError_readBytes
    (other : String)
    (stated : Nat)
    (found : ReadFault) :
    (readBytes name bytes max size fault).mapError InputError.reason =
      (readBytes other bytes max stated found).mapError InputError.reason := by
  rw [readBytes, readBytes]
  by_cases tooMany : max < bytes.size
  · rw [if_pos tooMany, if_pos tooMany]
    rfl
  · rw [if_neg tooMany, if_neg tooMany]
    cases String.fromUTF8? bytes <;> rfl

end

/-! ### Files and standard input -/

namespace Surroundings

variable {surroundings : Surroundings}
variable {path : String}
variable {found : File}
variable {bytes : ByteArray}

/-- The source text at a path. -/
def sourceAt
    (surroundings : Surroundings)
    (path : String) :
    Except InputError String :=
  (surroundings.readInput path).map Input.source

/-- Standard input is read whole, as far as its source text goes. -/
theorem sourceAt_stdin
    (surroundings : Surroundings) :
    surroundings.sourceAt "-" =
      readBytes "<stdin>" surroundings.stdin 104857600 104857601
        (.malformed (Text.Utf8.firstFault 0 surroundings.stdin.toList)) := by
  have bounded : sourceLimit.toNat + 1 < UInt64.size := by
    decide
  have read := readCapped_eq_readBytes stdinName surroundings.stdin bounded
  rw [toNat_sourceLimit] at read
  rw [sourceAt, readInput, if_pos rfl, ← stdinName, ← read]
  cases readCapped stdinName surroundings.stdin sourceLimit <;> rfl

/-- A file that states its size is read whole. -/
theorem sourceAt_file
    (notStdin : path ≠ "-")
    (named : surroundings.find path = .ok (.file found))
    (stated : found.size = bytes.size)
    (holds : found.contents.get = bytes) :
    surroundings.sourceAt path =
      readBytes path bytes 104857600 bytes.size .notUtf8 := by
  rw [sourceAt, readInput, if_neg notStdin, named]
  simp only [Node.read, toNat_sourceLimit, stated, holds, readBytes]
  by_cases tooMany : 104857600 < bytes.size
  · simp [tooMany, Except.map]
  · cases String.fromUTF8? bytes <;> simp [tooMany, Except.map]

end Surroundings

/--
A stream is read exactly, under every cap that has a successor: it is too large
if there are more bytes than the cap, whatever they are, and one more than the
cap is reported; otherwise it is the text that it encodes, if there is one. Only
one byte beyond the cap is looked at. A file and standard input with the same
bytes give the same source text, or are refused for the same reason, which is
that the bytes are too many or encode no text.
-/
theorem file_and_stdin_read_alike :
    (∀ (name : String) (bytes : ByteArray) (max : UInt64),
      max.toNat < UInt64.size - 1 →
        (readCapped name bytes max =
            .error (.tooLarge name (max.toNat + 1) max.toNat) ↔
          max.toNat < bytes.size) ∧
        (∀ source,
          readCapped name bytes max = .ok source ↔
            bytes.size ≤ max.toNat ∧ source.toUTF8 = bytes) ∧
        ((∃ source, readCapped name bytes max = .ok source) ↔
          bytes.size ≤ max.toNat ∧ bytes.IsValidUTF8) ∧
        ((∃ fault, readCapped name bytes max = .error (.read name fault)) ↔
          bytes.size ≤ max.toNat ∧ ¬bytes.IsValidUTF8) ∧
        ∀ other : ByteArray,
          other.extract 0 (max.toNat + 1) = bytes.extract 0 (max.toNat + 1) →
            readCapped name other max = readCapped name bytes max) ∧
    ∀ (files piped : Surroundings) (path : String) (found : File)
        (bytes : ByteArray),
      path ≠ "-" →
      files.find path = .ok (.file found) →
      found.size = bytes.size →
      found.contents.get = bytes →
      piped.stdin = bytes →
        (files.sourceAt path).mapError InputError.reason =
          (piped.sourceAt "-").mapError InputError.reason ∧
        (∀ source,
          files.sourceAt path = .ok source ↔
            bytes.size ≤ 104857600 ∧ source.toUTF8 = bytes) ∧
        ((∃ error, files.sourceAt path = .error error) ↔
          104857600 < bytes.size ∨ ¬bytes.IsValidUTF8) ∧
        (files.sourceAt path =
            .error (.tooLarge path bytes.size 104857600) ↔
          104857600 < bytes.size) ∧
        ((∃ fault, files.sourceAt path = .error (.read path fault)) ↔
          bytes.size ≤ 104857600 ∧ ¬bytes.IsValidUTF8) := by
  refine ⟨?_, ?_⟩
  · intro name bytes max below
    have bounded : max.toNat + 1 < UInt64.size :=
      add_one_lt_size (Nat.ne_of_lt below)
    refine ⟨?_, fun source => readCapped_eq_ok_iff bounded, ?_, ?_,
      fun other => readCapped_congr bounded⟩
    · rw [readCapped_eq_readBytes name bytes bounded]
      exact readBytes_eq_tooLarge_iff
    · simp only [readCapped_eq_ok_iff bounded, exists_and_left,
        exists_toUTF8_eq_iff]
    · rw [readCapped_eq_readBytes name bytes bounded]
      exact exists_readBytes_eq_read_iff
  · intro files piped path found bytes notStdin named stated holds stdin
    rw [Surroundings.sourceAt_file notStdin named stated holds,
      Surroundings.sourceAt_stdin, stdin]
    exact ⟨mapError_readBytes _ _ _, fun source => readBytes_eq_ok_iff,
      exists_readBytes_eq_error_iff, readBytes_eq_tooLarge_iff,
      exists_readBytes_eq_read_iff⟩

/-- A letter and half of another, in every file and on standard input. -/
def halfLetter : Surroundings where
  stdin := ⟨#[0x61, 0xC3]⟩
  find _ := .ok (.file ⟨2, .pure ⟨#[0x61, 0xC3]⟩⟩)

theorem file_and_stdin_read_alike_half_letter :
    readCapped "<stdin>" "abé".toUTF8 2 = .error (.tooLarge "<stdin>" 3 2) ∧
    readCapped "<stdin>" "abê".toUTF8 2 = readCapped "<stdin>" "abé".toUTF8 2 ∧
    (∃ fault, halfLetter.sourceAt "half" = .error (.read "half" fault)) ∧
    (halfLetter.sourceAt "half").mapError InputError.reason =
      (halfLetter.sourceAt "-").mapError InputError.reason := by
  obtain ⟨capped, alike⟩ := file_and_stdin_read_alike
  obtain ⟨tooLarge, -, -, -, sameStart⟩ :=
    capped "<stdin>" "abé".toUTF8 2 (by decide)
  obtain ⟨sameReason, -, -, -, malformed⟩ :=
    alike halfLetter halfLetter "half" ⟨2, .pure ⟨#[0x61, 0xC3]⟩⟩
      ⟨#[0x61, 0xC3]⟩ (by decide) rfl rfl rfl rfl
  exact ⟨tooLarge.mpr (by decide +kernel),
    sameStart "abê".toUTF8 (by decide +kernel),
    malformed.mpr (by decide +kernel), sameReason⟩

/-! ### The greatest cap -/

end LayoutLexer
