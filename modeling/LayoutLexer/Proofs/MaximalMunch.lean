import LayoutLexer.Proofs.Spelling

namespace LayoutLexer

/-!
# Maximal munch

The token at the start of a text is the longest beginning that spells one. This
settles its kind and its length (`Munches.unique`), and it is what the search over
the rules finds (`Rule.Arranged.munches`). The order of the rules is of no
account, as long as reserved words come before identifiers.
-/

/-- A text spells one kind only. -/
theorem Spells.kind_eq
    {kind other : TokenKind}
    {text : List Char}
    (spells : Spells kind text)
    (spellsOther : Spells other text) :
    kind = other := by
  have same :=
    (longestMatch_of_spells spells).symm.trans (longestMatch_of_spells spellsOther)
  exact (Prod.mk.inj (Option.some.inj same)).1

/-- A match is the longest beginning of a text that spells a token. -/
structure Munches (text : List Char) (found : Match) : Prop where
  spelled :
    ∀ kind length,
      found = some (kind, length) →
      length ≤ text.length ∧ Spells kind (text.take length)
  longest :
    ∀ kind word,
      Spells kind word →
      word <+: text →
      word.length ≤ found.length

/-- A text has one longest beginning that spells a token, or none at all. -/
theorem Munches.unique
    {text : List Char}
    {found other : Match}
    (munches : Munches text found)
    (munchesOther : Munches text other) :
    found = other := by
  -- What one of them spells is no longer than the other.
  have atMost :
      ∀ {first second : Match} {kind length},
        Munches text first →
        Munches text second →
        first = some (kind, length) →
        0 < length ∧ length ≤ second.length := by
    intro first second kind length munchesFirst munchesSecond isFirst
    obtain ⟨within, spells⟩ := munchesFirst.spelled kind length isFirst
    have bound := munchesSecond.longest kind _ spells (List.take_prefix length text)
    have present := List.length_pos_iff.mpr spells.ne_nil
    rw [List.length_take_of_le within] at bound present
    exact ⟨present, bound⟩
  cases shape : found with
  | none =>
      cases shapeOther : other with
      | none =>
          rfl
      | some token =>
          obtain ⟨positive, bound⟩ := atMost munchesOther munches shapeOther
          rw [shape] at bound
          exact absurd bound (Nat.not_le.mpr positive)
  | some token =>
      obtain ⟨kind, length⟩ := token
      cases shapeOther : other with
      | none =>
          obtain ⟨positive, bound⟩ := atMost munches munchesOther shape
          rw [shapeOther] at bound
          exact absurd bound (Nat.not_le.mpr positive)
      | some tokenOther =>
          obtain ⟨kindOther, lengthOther⟩ := tokenOther
          have sameLength : length = lengthOther := by
            have bound := (atMost munches munchesOther shape).2
            have boundOther := (atMost munchesOther munches shapeOther).2
            rw [shapeOther] at bound
            rw [shape] at boundOther
            exact Nat.le_antisymm bound boundOther
          subst sameLength
          rw [(munches.spelled _ _ shape).2.kind_eq
            (munchesOther.spelled _ _ shapeOther).2]

/-! ### Every spelling is matched -/

theorem digitRun_append_of_digits
    {digits : List Char}
    (areDigits : Digits digits)
    (more : List Char) :
    digitRun (digits ++ more) = digits.length + digitRun more := by
  rw [digitRun, List.takeWhile_append_of_pos areDigits, List.length_append]
  rfl

/-- What spells a token at the start of a text is matched there by a rule. -/
theorem exists_rule_of_spells
    {kind : TokenKind}
    {word text : List Char}
    (spells : Spells kind word)
    (begins : word <+: text) :
    ∃ rule ∈ Rule.all, word.length ≤ rule.pattern.matchLength text := by
  have ofSpelling :
      ∀ spelling : String,
        spelling.toList <+: text →
        spelling.toList.length ≤ (Pattern.spelled spelling).matchLength text := by
    intro spelling first
    rw [Pattern.matchLength, if_pos (List.isPrefixOf_iff_prefix.mpr first),
      String.length_toList]
  cases spells with
  | keyword word =>
      exact ⟨_, Rule.ofKeyword_mem_all word, ofSpelling word.spelling begins⟩
  | operator symbol =>
      exact ⟨_, Rule.ofOperator_mem_all symbol, ofSpelling symbol.spelling begins⟩
  | punctuation mark =>
      exact ⟨_, Rule.ofPunctuation_mem_all mark, ofSpelling mark.spelling begins⟩
  | @identifier c rest starts continues _ =>
      obtain ⟨more, rfl⟩ := begins
      refine ⟨⟨.identifier, .identifier⟩, by decide, ?_⟩
      rw [Pattern.matchLength, List.cons_append, identifierRun, if_pos starts,
        List.takeWhile_append_of_pos continues, List.length_cons,
        List.length_append]
      omega
  | number _ areDigits =>
      obtain ⟨more, rfl⟩ := begins
      refine ⟨⟨.number, .number⟩, by decide, ?_⟩
      rw [Pattern.matchLength, digitRun_append_of_digits areDigits]
      exact Nat.le_add_right _ _
  | @float whole fraction areDigits present fractionDigits =>
      obtain ⟨more, rfl⟩ := begins
      refine ⟨⟨.float, .float⟩, by decide, ?_⟩
      have positive : fraction.length + digitRun more ≠ 0 := by
        have positive := List.length_pos_iff.mpr present
        omega
      rw [Pattern.matchLength, List.append_assoc, List.cons_append, floatRun,
        dropWhile_isDigit_append areDigits]
      simp only [digitRun_append_of_digits fractionDigits,
        digitRun_append_of_digits areDigits, positive, ↓reduceIte,
        List.length_append, List.length_cons]
      omega

/-! ### What the search finds -/

/-- The search comes to the greatest length that a rule matches. -/
theorem length_longestMatch
    (rules : List Rule)
    (text : List Char) :
    Match.length (longestMatch rules text) = greatestMatch rules text := by
  have folded :
      ∀ found : Match,
        Match.length (rules.foldl (Match.extend text) found) =
          max found.length (greatestMatch rules text) := by
    induction rules with
    | nil =>
        intro found
        exact (Nat.max_eq_left (Nat.zero_le _)).symm
    | cons rule others inductionHypothesis =>
        intro found
        have extended :
            Match.length (found.extend text rule) =
              max found.length (rule.pattern.matchLength text) := by
          rw [Match.extend]
          split
          · rename_i longer
            exact (Nat.max_eq_right (Nat.le_of_lt longer)).symm
          · rename_i notLonger
            exact (Nat.max_eq_left (Nat.le_of_not_lt notLonger)).symm
        rw [List.foldl_cons, inductionHypothesis, extended, greatestMatch,
          Nat.max_assoc]
  rw [longestMatch, folded]
  exact Nat.max_eq_right (Nat.zero_le _)

/-- In any order that keeps keywords before identifiers, the rules munch. -/
theorem Rule.Arranged.munches
    {rules : List Rule}
    (arranged : Rule.Arranged rules)
    (text : List Char) :
    Munches text (longestMatch rules text) where
  spelled _ _ found :=
    ⟨length_le_of_longestMatch found, arranged.spells_of_longestMatch found⟩
  longest kind word spells begins := by
    obtain ⟨rule, member, matched⟩ := exists_rule_of_spells spells begins
    rw [length_longestMatch]
    exact Nat.le_trans matched
      (matchLength_le_greatestMatch (arranged.perm.mem_iff.mpr member))

end LayoutLexer
