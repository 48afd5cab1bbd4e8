import LayoutLexer.Proofs.Matching
import Mathlib.Data.List.TakeWhile

namespace LayoutLexer

/-!
# How tokens are spelled

Each lexical kind has its texts: reserved words, operators and punctuation marks
have one spelling each, identifiers and numbers have a shape. A text that spells
a kind is found whole, and with that kind, where nothing lengthens it
(`longestMatch_of_spells`); and whatever the search finds spells the kind that it
is found with (`spells_of_longestMatch`).
-/

/-- Decimal digits only. -/
def Digits (text : List Char) : Prop :=
  ∀ c ∈ text, c.isDigit = true

/-- A text spells a kind of token. -/
inductive Spells : TokenKind → List Char → Prop where
  | keyword (word : Keyword) :
      Spells (.keyword word) word.spelling.toList
  | operator (symbol : Operator) :
      Spells (.operator symbol) symbol.spelling.toList
  | punctuation (mark : Punctuation) :
      Spells (.punctuation mark) mark.spelling.toList
  /-- A reserved word is no identifier. -/
  | identifier {c : Char} {rest : List Char} :
      startsIdentifier c = true →
      (∀ later ∈ rest, continuesIdentifier later = true) →
      (∀ word : Keyword, c :: rest ≠ word.spelling.toList) →
      Spells .identifier (c :: rest)
  | number {digits : List Char} :
      digits ≠ [] →
      Digits digits →
      Spells .number digits
  /-- The digits before the point may be missing. -/
  | float {whole fraction : List Char} :
      Digits whole →
      fraction ≠ [] →
      Digits fraction →
      Spells .float (whole ++ '.' :: fraction)

/-! ### Characters of a spelling -/

theorem startsIdentifier_of_isDigit
    {c : Char}
    (digit : c.isDigit = true) :
    startsIdentifier c = false := by
  -- The digits come before the letters and the underscore.
  have upToNine : c.val ≤ '9'.val :=
    of_decide_eq_true (Bool.and_eq_true_iff.mp digit).2
  have behind : ∀ first : UInt32, '9'.val < first → ¬ first ≤ c.val :=
    fun first later fromFirst =>
      UInt32.not_le.mpr later (UInt32.le_trans fromFirst upToNine)
  have noUpper : c.isUpper = false :=
    decide_eq_false fun upper => behind 'A'.val (by decide) upper.1
  have noLower : c.isLower = false :=
    Bool.and_eq_false_iff.mpr
      (.inl (decide_eq_false (behind 'a'.val (by decide))))
  have noUnderscore : (c == '_') = false := by
    apply beq_false_of_ne
    intro isUnderscore
    subst isUnderscore
    cases digit
  exact Bool.or_eq_false_iff.mpr
    ⟨Bool.or_eq_false_iff.mpr ⟨noUpper, noLower⟩, noUnderscore⟩

theorem continuesIdentifier_of_startsIdentifier
    {c : Char}
    (starts : startsIdentifier c = true) :
    continuesIdentifier c = true := by
  rw [startsIdentifier, Bool.or_eq_true] at starts
  rw [continuesIdentifier, Char.isAlphanum, Bool.or_eq_true, Bool.or_eq_true]
  exact starts.imp_left Or.inl

theorem separates_of_continuesIdentifier
    {c : Char}
    (continues : continuesIdentifier c = true) :
    separates c = false := by
  apply Bool.eq_false_iff.mpr
  intro separator
  rw [continuesIdentifier_of_separates separator] at continues
  cases continues

theorem separates_of_isDigit
    {c : Char}
    (digit : c.isDigit = true) :
    separates c = false := by
  apply separates_of_continuesIdentifier
  rw [continuesIdentifier, Char.isAlphanum, digit, Bool.or_true, Bool.true_or]

/-- The spelling of a rule holds no separator. -/
theorem separates_of_mem_spelling
    {kind : TokenKind}
    {spelling : String}
    (member : ⟨kind, .spelled spelling⟩ ∈ Rule.all) :
    ∀ c ∈ spelling.toList, separates c = false := by
  simpa [Pattern.isSolid] using isSolid_of_mem_all member

namespace Rule

theorem ofKeyword_mem_all
    (word : Keyword) :
    ofKeyword word ∈ all := by
  cases word <;> decide

theorem ofOperator_mem_all
    (symbol : Operator) :
    ofOperator symbol ∈ all := by
  cases symbol <;> decide

theorem ofPunctuation_mem_all
    (mark : Punctuation) :
    ofPunctuation mark ∈ all := by
  cases mark <;> decide

/-- The rules of the language in some order, keywords before identifiers. -/
structure Arranged (rules : List Rule) : Prop where
  perm : rules.Perm all
  keywordsFirst :
    ∀ word : Keyword,
      rules.idxOf (ofKeyword word) < rules.idxOf ⟨.identifier, .identifier⟩

theorem arranged_all : Arranged all where
  perm := .refl all
  keywordsFirst word := by
    cases word <;> decide

end Rule

namespace Spells

variable {kind : TokenKind}
variable {text : List Char}

theorem ne_nil
    (spells : Spells kind text) :
    text ≠ [] := by
  cases spells with
  | keyword word =>
      cases word <;> decide
  | operator symbol =>
      cases symbol <;> decide
  | punctuation mark =>
      cases mark <;> decide
  | identifier =>
      exact List.cons_ne_nil _ _
  | number present =>
      exact present
  | float =>
      exact List.append_ne_nil_of_right_ne_nil _ (List.cons_ne_nil _ _)

/-- A spelling holds no separator. -/
theorem solid
    (spells : Spells kind text) :
    ∀ c ∈ text, separates c = false := by
  cases spells with
  | keyword word =>
      exact separates_of_mem_spelling (Rule.ofKeyword_mem_all word)
  | operator symbol =>
      exact separates_of_mem_spelling (Rule.ofOperator_mem_all symbol)
  | punctuation mark =>
      exact separates_of_mem_spelling (Rule.ofPunctuation_mem_all mark)
  | identifier starts continues =>
      intro c member
      rcases List.mem_cons.mp member with isFirst | later
      · rw [isFirst]
        exact separates_of_continuesIdentifier
          (continuesIdentifier_of_startsIdentifier starts)
      · exact separates_of_continuesIdentifier (continues c later)
  | number _ digits =>
      intro c member
      exact separates_of_isDigit (digits c member)
  | float whole _ fraction =>
      intro c member
      rcases List.mem_append.mp member with inWhole | behind
      · exact separates_of_isDigit (whole c inWhole)
      · rcases List.mem_cons.mp behind with isPoint | inFraction
        · rw [isPoint]
          rfl
        · exact separates_of_isDigit (fraction c inFraction)

end Spells

/-! ### Spellings are found -/

section

variable {rules : List Rule}
variable {rule : Rule}
variable {text : List Char}

/-- No rule of a table matches more than the greatest match. -/
theorem matchLength_le_greatestMatch
    (member : rule ∈ rules) :
    rule.pattern.matchLength text ≤ greatestMatch rules text := by
  induction rules with
  | nil =>
      cases member
  | cons first others inductionHypothesis =>
      rw [greatestMatch]
      rcases List.mem_cons.mp member with isFirst | later
      · rw [← isFirst]
        exact Nat.le_max_left _ _
      · exact Nat.le_trans (inductionHypothesis later) (Nat.le_max_right _ _)

/-- A rule that matches the whole text matches as much as any rule can. -/
theorem greatestMatch_eq_length
    (member : rule ∈ rules)
    (whole : rule.pattern.matchLength text = text.length) :
    greatestMatch rules text = text.length := by
  have within : ∀ others : List Rule, greatestMatch others text ≤ text.length := by
    intro others
    induction others with
    | nil =>
        exact Nat.zero_le _
    | cons first others inductionHypothesis =>
        exact Nat.max_le.mpr
          ⟨matchLength_le_length first.pattern text, inductionHypothesis⟩
  apply Nat.le_antisymm (within rules)
  rw [← whole]
  exact matchLength_le_greatestMatch member

/-- The first rule that matches a whole text decides. -/
theorem longestMatch_of_first
    (before : List Rule)
    (rule : Rule)
    {after : List Rule}
    (present : text ≠ [])
    (whole : rule.pattern.matchLength text = text.length)
    (first :
      ∀ earlier ∈ before, earlier.pattern.matchLength text ≠ text.length) :
    longestMatch (before ++ rule :: after) text =
      some (rule.kind, text.length) := by
  have greatest :
      greatestMatch (before ++ rule :: after) text = text.length :=
    greatestMatch_eq_length
      (List.mem_append_right before List.mem_cons_self) whole
  have skipped :
      before.find? (fun earlier =>
        earlier.pattern.matchLength text == text.length) = none := by
    apply List.find?_eq_none.mpr
    intro earlier member
    simpa using first earlier member
  rw [longestMatch_eq_firstLongest, firstLongest, greatest, List.find?_append,
    skipped]
  simp [present, whole]

theorem take_of_matchLength_spelled
    {spelling : String}
    {length : Nat}
    (matched : (Pattern.spelled spelling).matchLength text = length)
    (positive : 0 < length) :
    text.take length = spelling.toList := by
  rw [Pattern.matchLength] at matched
  split at matched
  · rename_i found
    rw [← matched, ← String.length_toList]
    exact (List.prefix_iff_eq_take.mp (List.isPrefixOf_iff_prefix.mp found)).symm
  · omega

theorem matchLength_spelled_of_take
    {spelling : String}
    {length : Nat}
    (within : length ≤ text.length)
    (spelled : text.take length = spelling.toList) :
    (Pattern.spelled spelling).matchLength text = length := by
  have found : spelling.toList <+: text :=
    spelled ▸ List.take_prefix length text
  rw [Pattern.matchLength, if_pos (List.isPrefixOf_iff_prefix.mpr found),
    ← String.length_toList, ← spelled, List.length_take_of_le within]

/-- Of the texts that are not empty, a spelling is matched whole by itself only. -/
theorem matchLength_spelled_eq_length_iff
    (present : text ≠ [])
    (spelling : String) :
    (Pattern.spelled spelling).matchLength text = text.length ↔
      text = spelling.toList := by
  constructor
  · intro whole
    have spelled :=
      take_of_matchLength_spelled whole (List.length_pos_iff.mpr present)
    rwa [List.take_length] at spelled
  · intro same
    apply matchLength_spelled_of_take (Nat.le_refl _)
    rwa [List.take_length]

end

/-- What does not start like an identifier is no reserved word either. -/
theorem matchLength_ne_of_not_startsIdentifier
    {c : Char}
    {rest : List Char}
    (noStart : startsIdentifier c = false) :
    ∀ rule ∈ Keyword.all.map Rule.ofKeyword ++ [⟨.identifier, .identifier⟩],
      rule.pattern.matchLength (c :: rest) ≠ (c :: rest).length := by
  intro rule member
  rcases List.mem_append.mp member with isKeyword | isIdentifier
  · obtain ⟨word, _, rfl⟩ := List.mem_map.mp isKeyword
    intro whole
    have same : c :: rest = word.spelling.toList :=
      (matchLength_spelled_eq_length_iff (List.cons_ne_nil c rest) _).mp whole
    have starts : word.spelling.toList.head?.any startsIdentifier = true := by
      cases word <;> decide
    rw [← same] at starts
    simp [noStart] at starts
  · rw [List.mem_singleton.mp isIdentifier]
    simp [Pattern.matchLength, identifierRun, noStart]

section

variable {digits fraction : List Char}

theorem dropWhile_isDigit_append
    (areDigits : Digits digits)
    (fraction : List Char) :
    (digits ++ '.' :: fraction).dropWhile Char.isDigit = '.' :: fraction := by
  rw [List.dropWhile_append_of_pos areDigits]
  rfl

theorem digitRun_eq_length
    (areDigits : Digits digits) :
    digitRun digits = digits.length := by
  rw [digitRun, List.takeWhile_eq_self_iff.mpr areDigits]

/-- Digits alone are no decimal fraction. -/
theorem floatRun_digits
    (areDigits : Digits digits) :
    floatRun digits = 0 := by
  have passed : digits.dropWhile Char.isDigit = [] :=
    List.dropWhile_eq_nil_iff.mpr areDigits
  rw [floatRun, passed]

theorem floatRun_point
    (areDigits : Digits digits)
    (present : fraction ≠ [])
    (fractionDigits : Digits fraction) :
    floatRun (digits ++ '.' :: fraction) =
      (digits ++ '.' :: fraction).length := by
  have before : digitRun (digits ++ '.' :: fraction) = digits.length := by
    rw [digitRun, List.takeWhile_append_of_pos areDigits]
    simp
  have behind : digitRun fraction = fraction.length :=
    digitRun_eq_length fractionDigits
  have positive : fraction.length ≠ 0 := by
    simpa using present
  rw [floatRun, dropWhile_isDigit_append areDigits]
  simp only [behind, before, positive, ↓reduceIte, List.length_append,
    List.length_cons]
  omega

end

/-- A text that spells a kind is found whole, with this kind. -/
theorem longestMatch_of_spells
    {kind : TokenKind}
    {text : List Char}
    (spells : Spells kind text) :
    longestMatch Rule.all text = some (kind, text.length) := by
  have present := spells.ne_nil
  cases spells with
  | keyword word =>
      cases word <;> decide +kernel
  | operator symbol =>
      cases symbol <;> decide +kernel
  | punctuation mark =>
      cases mark <;> decide +kernel
  | @identifier c rest starts continues noKeyword =>
      have whole : Pattern.identifier.matchLength (c :: rest) = (c :: rest).length := by
        rw [Pattern.matchLength, identifierRun, if_pos starts,
          List.takeWhile_eq_self_iff.mpr continues, List.length_cons, Nat.add_comm]
      refine longestMatch_of_first (Keyword.all.map Rule.ofKeyword)
        ⟨.identifier, .identifier⟩ present whole ?_
      intro earlier member
      obtain ⟨word, _, rfl⟩ := List.mem_map.mp member
      intro same
      exact noKeyword word
        ((matchLength_spelled_eq_length_iff present _).mp same)
  | @number digits _ areDigits =>
      obtain ⟨c, rest, rfl⟩ := List.exists_cons_of_ne_nil present
      have noStart : startsIdentifier c = false :=
        startsIdentifier_of_isDigit (areDigits c List.mem_cons_self)
      have noFloat : floatRun (c :: rest) ≠ (c :: rest).length := by
        rw [floatRun_digits areDigits]
        exact Nat.noConfusion
      refine longestMatch_of_first
        (Keyword.all.map Rule.ofKeyword ++ [⟨.identifier, .identifier⟩] ++
          [⟨.float, .float⟩])
        ⟨.number, .number⟩ present (digitRun_eq_length areDigits) ?_
      intro earlier member
      rcases List.mem_append.mp member with isWord | isFloat
      · exact matchLength_ne_of_not_startsIdentifier noStart earlier isWord
      · rw [List.mem_singleton.mp isFloat]
        exact noFloat
  | @float whole fraction areDigits fractionPresent fractionDigits =>
      have noStart :
          ∀ c rest, whole ++ '.' :: fraction = c :: rest →
            startsIdentifier c = false := by
        intro c rest shape
        cases whole with
        | nil =>
            cases shape
            rfl
        | cons digit others =>
            cases shape
            exact startsIdentifier_of_isDigit (areDigits c List.mem_cons_self)
      refine longestMatch_of_first
        (Keyword.all.map Rule.ofKeyword ++ [⟨.identifier, .identifier⟩])
        ⟨.float, .float⟩ present
        (floatRun_point areDigits fractionPresent fractionDigits) ?_
      obtain ⟨c, rest, shape⟩ := List.exists_cons_of_ne_nil present
      rw [shape]
      exact matchLength_ne_of_not_startsIdentifier (noStart c rest shape)

/-! ### What is found is a spelling -/

section

variable {text : List Char}
variable {length : Nat}

theorem take_of_identifierRun
    (matched : identifierRun text = length)
    (positive : 0 < length) :
    ∃ c rest,
      text.take length = c :: rest ∧
        startsIdentifier c = true ∧
        ∀ later ∈ rest, continuesIdentifier later = true := by
  cases text with
  | nil =>
      rw [identifierRun] at matched
      omega
  | cons c rest =>
      rw [identifierRun] at matched
      split at matched
      · rename_i starts
        refine ⟨c, rest.takeWhile continuesIdentifier, ?_, starts, ?_⟩
        · rw [← matched, Nat.add_comm, List.take_succ_cons]
          exact congrArg (c :: ·)
            (List.prefix_iff_eq_take.mp (List.takeWhile_prefix _)).symm
        · intro later member
          exact List.mem_takeWhile_imp member
      · omega

theorem take_digitRun
    (text : List Char) :
    text.take (digitRun text) = text.takeWhile Char.isDigit :=
  (List.prefix_iff_eq_take.mp (List.takeWhile_prefix _)).symm

theorem digits_takeWhile
    (text : List Char) :
    Digits (text.takeWhile Char.isDigit) :=
  fun _ member => List.mem_takeWhile_imp member

theorem take_of_floatRun
    (matched : floatRun text = length)
    (positive : 0 < length) :
    ∃ whole fraction,
      text.take length = whole ++ '.' :: fraction ∧
        Digits whole ∧ fraction ≠ [] ∧ Digits fraction := by
  rw [floatRun] at matched
  split at matched
  · rename_i fraction behind
    split at matched
    · omega
    · rename_i present
      have shape :
          text = text.takeWhile Char.isDigit ++ '.' :: fraction := by
        rw [← behind, List.takeWhile_append_dropWhile]
      have cut :
          ∀ whole : List Char,
            (whole ++ '.' :: fraction).take (whole.length + 1 + digitRun fraction) =
              whole ++ '.' :: fraction.takeWhile Char.isDigit := by
        intro whole
        rw [Nat.add_assoc, List.take_length_add_append, Nat.add_comm 1,
          List.take_succ_cons, take_digitRun]
      refine ⟨text.takeWhile Char.isDigit, fraction.takeWhile Char.isDigit, ?_,
        digits_takeWhile text, ?_, digits_takeWhile fraction⟩
      · rw [← matched, ← cut, ← shape]
        rfl
      · intro isEmpty
        exact present (by rw [digitRun, isEmpty, List.length_nil])
  · omega

/-- What comes before something else in a list is in the part before it. -/
theorem mem_of_idxOf_lt
    [DecidableEq α]
    {before after : List α}
    {first second : α}
    (earlier :
      (before ++ second :: after).idxOf first <
        (before ++ second :: after).idxOf second) :
    first ∈ before := by
  by_contra absent
  rw [List.idxOf_append_of_notMem absent] at earlier
  have atMost :
      (before ++ second :: after).idxOf second ≤ before.length := by
    rw [List.idxOf_append]
    split
    · exact List.idxOf_le_length
    · rw [List.idxOf_cons_self, Nat.zero_add]
  omega

/-- A text that is found to be an identifier is no reserved word. -/
theorem matchLength_keyword_ne_of_longestMatch
    {rules : List Rule}
    (arranged : Rule.Arranged rules)
    (found : longestMatch rules text = some (.identifier, length))
    (word : Keyword) :
    (Rule.ofKeyword word).pattern.matchLength text ≠ length := by
  have onlyIdentifier :
      ∀ rule ∈ Rule.all, rule.kind = .identifier →
        rule = ⟨.identifier, .identifier⟩ := by
    decide
  rw [longestMatch_eq_firstLongest, firstLongest] at found
  split at found
  · cases found
  · obtain ⟨rule, first, same⟩ := Option.map_eq_some_iff.mp found
    obtain ⟨isIdentifier, isLength⟩ := Prod.mk.inj same
    have isRule : rule = ⟨.identifier, .identifier⟩ :=
      onlyIdentifier rule
        (arranged.perm.mem_iff.mp (List.mem_of_find?_eq_some first)) isIdentifier
    rw [isLength] at first
    obtain ⟨_, before, after, shape, unmatched⟩ :=
      List.find?_eq_some_iff_append.mp first
    -- Reserved words come before it in the table, and none of the rules there
    -- matches this length.
    have earlier := arranged.keywordsFirst word
    rw [shape, isRule] at earlier
    simpa using unmatched _ (mem_of_idxOf_lt earlier)

end

/-- What a rule matches spells its kind, unless a reserved word is as long. -/
theorem spells_of_matchLength
    {rule : Rule}
    {text : List Char}
    {length : Nat}
    (member : rule ∈ Rule.all)
    (matched : rule.pattern.matchLength text = length)
    (positive : 0 < length)
    (noKeyword :
      rule.kind = .identifier →
      ∀ word, (Rule.ofKeyword word).pattern.matchLength text ≠ length) :
    Spells rule.kind (text.take length) := by
  have within : length ≤ text.length :=
    matched ▸ matchLength_le_length rule.pattern text
  simp only [Rule.all, List.mem_append, List.mem_map, List.mem_cons,
    List.not_mem_nil, or_false] at member
  rcases member with
    ((⟨word, _, rfl⟩ | rfl | rfl | rfl) | ⟨symbol, _, rfl⟩) | ⟨mark, _, rfl⟩
  · rw [take_of_matchLength_spelled matched positive]
    exact .keyword word
  · obtain ⟨c, rest, shape, starts, continues⟩ :=
      take_of_identifierRun matched positive
    rw [shape]
    refine .identifier starts continues ?_
    intro word same
    exact noKeyword rfl word
      (matchLength_spelled_of_take within (shape.trans same))
  · obtain ⟨whole, fraction, shape, areDigits, present, fractionDigits⟩ :=
      take_of_floatRun matched positive
    rw [shape]
    exact .float areDigits present fractionDigits
  · rw [← matched] at positive ⊢
    rw [Pattern.matchLength, take_digitRun]
    exact .number (List.length_pos_iff.mp positive) (digits_takeWhile text)
  · rw [take_of_matchLength_spelled matched positive]
    exact .operator symbol
  · rw [take_of_matchLength_spelled matched positive]
    exact .punctuation mark

/-- What is found spells the kind that it is found with. -/
theorem Rule.Arranged.spells_of_longestMatch
    {rules : List Rule}
    {text : List Char}
    {kind : TokenKind}
    {length : Nat}
    (arranged : Rule.Arranged rules)
    (found : longestMatch rules text = some (kind, length)) :
    Spells kind (text.take length) := by
  obtain ⟨rule, member, rfl, matched, positive⟩ := rule_of_longestMatch found
  refine spells_of_matchLength (arranged.perm.mem_iff.mp member) matched
    positive ?_
  intro isIdentifier word
  rw [isIdentifier] at found
  exact matchLength_keyword_ne_of_longestMatch arranged found word

/-- What is found with the rules of the language spells its kind. -/
theorem spells_of_longestMatch
    {text : List Char}
    {kind : TokenKind}
    {length : Nat}
    (found : longestMatch Rule.all text = some (kind, length)) :
    Spells kind (text.take length) :=
  Rule.arranged_all.spells_of_longestMatch found

end LayoutLexer
