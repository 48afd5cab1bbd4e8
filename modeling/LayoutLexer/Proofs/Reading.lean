import LayoutLexer.Input

namespace LayoutLexer

/-!
# What can be read

Reading gives a source exactly when there is one: the bytes of standard input or
of a file, not too many, that are the encoding of a text. That standard input is
read only up to one byte beyond the greatest size makes no difference, as long
as that bound is a 64-bit number.
-/

/-! ### Decoding -/

/-- Bytes are decoded to the text that they encode. -/
theorem fromUTF8?_eq_some_iff
    {bytes : ByteArray}
    {text : String} :
    String.fromUTF8? bytes = some text ↔ text.toUTF8 = bytes := by
  constructor
  · intro decoded
    rw [String.fromUTF8?] at decoded
    split at decoded
    · cases decoded
      rfl
    · cases decoded
  · intro encoded
    rw [← encoded, String.toUTF8_eq_toByteArray, String.fromUTF8?,
      dif_pos text.isValidUTF8]
    rfl

/-! ### Reading a stream -/

/-- All bytes are the first, if so many are asked for. -/
theorem firstBytes_of_size_le
    {bytes : ByteArray}
    {count : Nat}
    (short : bytes.size ≤ count) :
    firstBytes bytes count = bytes := by
  rw [firstBytes, Nat.min_eq_right short, ByteArray.extract_zero_size]

theorem size_firstBytes
    (bytes : ByteArray)
    (count : Nat) :
    (firstBytes bytes count).size = min count bytes.size := by
  simp [firstBytes]

/-- The bound of a stream is one beyond its maximum, if that is a 64-bit number. -/
theorem toNat_add_one
    {max : UInt64}
    (bounded : max.toNat + 1 < UInt64.size) :
    (max + 1).toNat = max.toNat + 1 := by
  rw [UInt64.toNat_add]
  exact Nat.mod_eq_of_lt bounded

/--
Read bytes that are all at hand, refusing more than `max`. What is reported of
bytes that are refused depends on where they come from.
-/
def readBytes
    (name : String)
    (bytes : ByteArray)
    (max size : Nat)
    (fault : ReadFault) :
    Except InputError String :=
  if max < bytes.size then
    .error (.tooLarge name size max)
  else
    match String.fromUTF8? bytes with
    | some source =>
        .ok source
    | none =>
        .error (.read name fault)

theorem readBytes_eq_ok_iff
    {name source : String}
    {bytes : ByteArray}
    {max size : Nat}
    {fault : ReadFault} :
    readBytes name bytes max size fault = .ok source ↔
      bytes.size ≤ max ∧ source.toUTF8 = bytes := by
  rw [readBytes, ← fromUTF8?_eq_some_iff]
  by_cases tooMany : max < bytes.size
  · simp [tooMany, Nat.not_le_of_lt tooMany]
  · cases String.fromUTF8? bytes <;> simp [tooMany, Nat.le_of_not_lt tooMany]

/-- One byte beyond its maximum tells as much of a stream as all its bytes. -/
theorem readCapped_eq_readBytes
    (name : String)
    (bytes : ByteArray)
    {max : UInt64}
    (bounded : max.toNat + 1 < UInt64.size) :
    readCapped name bytes max =
      readBytes name bytes max.toNat (max.toNat + 1)
        (.malformed (Text.Utf8.firstFault 0 bytes.toList)) := by
  rw [readCapped, readBytes, toNat_add_one bounded]
  by_cases tooMany : max.toNat < bytes.size
  · have taken : (firstBytes bytes (max.toNat + 1)).size = max.toNat + 1 := by
      rw [size_firstBytes]
      exact Nat.min_eq_left tooMany
    simp only [taken, Nat.lt_succ_self, if_pos tooMany, ↓reduceIte]
  · have whole : firstBytes bytes (max.toNat + 1) = bytes :=
      firstBytes_of_size_le (by omega)
    cases decoded : String.fromUTF8? bytes <;>
      simp only [whole, if_neg tooMany, decoded]

/-- A stream is read whole or not at all, if there is a byte beyond its maximum. -/
theorem readCapped_eq_ok_iff
    {name : String}
    {bytes : ByteArray}
    {max : UInt64}
    {source : String}
    (bounded : max.toNat + 1 < UInt64.size) :
    readCapped name bytes max = .ok source ↔
      bytes.size ≤ max.toNat ∧ source.toUTF8 = bytes := by
  rw [readCapped_eq_readBytes name bytes bounded, readBytes_eq_ok_iff]

/-! ### Reading a path -/

/--
There is a source to read at a path: bytes of standard input, for the path `-`,
or of a regular file. They are the encoding of a text, and not too many; the
size of a file is the one that it states.
-/
inductive Surroundings.Provides
    (surroundings : Surroundings) :
    String → Input → Prop where
  | stdin {source : String} :
      surroundings.stdin.size ≤ 104857600 →
      source.toUTF8 = surroundings.stdin →
      Provides surroundings "-" ⟨"<stdin>", source⟩
  | file {path source : String} {found : File} :
      path ≠ "-" →
      surroundings.find path = .ok (.file found) →
      found.size ≤ 104857600 →
      source.toUTF8 = found.contents.get →
      Provides surroundings path ⟨path, source⟩

theorem toNat_sourceLimit :
    sourceLimit.toNat = 104857600 :=
  rfl

/-- A regular file is read if it is not too large and holds a text. -/
theorem Node.read_eq_ok_iff
    {node : Node}
    {path : String}
    {input : Input} :
    node.read path = .ok input ↔
      ∃ found source,
        node = .file found ∧
          found.size ≤ 104857600 ∧
          source.toUTF8 = found.contents.get ∧
          input = ⟨path, source⟩ := by
  cases node with
  | directory =>
      simp [Node.read]
  | file found =>
      simp only [Node.read, toNat_sourceLimit, Node.file.injEq,
        exists_and_left, exists_eq_left', ← fromUTF8?_eq_some_iff]
      by_cases tooLarge : 104857600 < found.size
      · simp [tooLarge, Nat.not_le_of_lt tooLarge]
      · cases String.fromUTF8? found.contents.get <;>
          simp [tooLarge, Nat.le_of_not_lt tooLarge, eq_comm]

/-- Reading a path gives what there is to read at it. -/
theorem Surroundings.readInput_eq_ok_iff
    {surroundings : Surroundings}
    {path : String}
    {input : Input} :
    surroundings.readInput path = .ok input ↔
      surroundings.Provides path input := by
  have bounded : sourceLimit.toNat + 1 < UInt64.size := by
    decide
  constructor
  · intro read
    rw [readInput] at read
    by_cases isStdin : path = "-"
    · rw [if_pos isStdin] at read
      cases taken : readCapped stdinName surroundings.stdin sourceLimit with
      | error error =>
          simp [taken] at read
      | ok source =>
          obtain ⟨small, encoded⟩ := (readCapped_eq_ok_iff bounded).mp taken
          simp only [taken, Except.ok.injEq] at read
          subst isStdin read
          exact .stdin small encoded
    · rw [if_neg isStdin] at read
      cases named : surroundings.find path with
      | error fault =>
          simp [named] at read
      | ok node =>
          simp only [named] at read
          obtain ⟨found, source, isFile, small, encoded, isInput⟩ :=
            Node.read_eq_ok_iff.mp read
          subst isFile isInput
          exact .file isStdin named small encoded
  · intro provided
    cases provided with
    | stdin small encoded =>
        have taken :
            readCapped stdinName surroundings.stdin sourceLimit = .ok _ :=
          (readCapped_eq_ok_iff bounded).mpr ⟨small, encoded⟩
        simp only [readInput, if_pos, taken]
        rfl
    | file notStdin named small encoded =>
        have read : Node.read (.file _) path = .ok _ :=
          Node.read_eq_ok_iff.mpr ⟨_, _, rfl, small, encoded, rfl⟩
        rw [readInput, if_neg notStdin, named]
        exact read

end LayoutLexer
