import LayoutLexer.Cursor
import Mathlib.Data.List.Basic

namespace LayoutLexer

/-!
# The longest match

The rule table is searched rule by rule, keeping the best match so far. What the
search finds can be said without the search: the greatest length that any rule
matches, and the first rule that matches it (`longestMatch_eq_firstLongest`).

A match depends only on the text up to the next separator: no token contains a
blank, a comment mark or part of a line terminator. So a line can be cut into
tokens without looking at the text behind it (`longestMatch_append`).
-/

/-! ### Search and maximum -/

/-- The greatest length that a rule of the table matches; zero if none does. -/
def greatestMatch (rules : List Rule) (text : List Char) : Nat :=
  match rules with
  | [] =>
      0
  | rule :: others =>
      max (rule.pattern.matchLength text) (greatestMatch others text)

/-- The first rule that matches the greatest length, with that length. -/
def firstLongest (rules : List Rule) (text : List Char) : Match :=
  if greatestMatch rules text = 0 then
    none
  else
    (rules.find? fun rule =>
      rule.pattern.matchLength text == greatestMatch rules text).map
        fun rule => (rule.kind, greatestMatch rules text)

/-- A first rule that matches less than a later one does not count. -/
theorem firstLongest_cons_of_lt
    {rule : Rule}
    {others : List Rule}
    {text : List Char}
    (shorter : rule.pattern.matchLength text < greatestMatch others text) :
    firstLongest (rule :: others) text = firstLongest others text := by
  have greatest :
      greatestMatch (rule :: others) text = greatestMatch others text :=
    Nat.max_eq_right (Nat.le_of_lt shorter)
  have different :
      rule.pattern.matchLength text ≠ greatestMatch others text :=
    Nat.ne_of_lt shorter
  simp [firstLongest, greatest, different]

/-- A first rule that matches as much as all later ones decides. -/
theorem firstLongest_cons_of_ge
    {rule : Rule}
    {others : List Rule}
    {text : List Char}
    (matched : 0 < rule.pattern.matchLength text)
    (longest : greatestMatch others text ≤ rule.pattern.matchLength text) :
    firstLongest (rule :: others) text =
      some (rule.kind, rule.pattern.matchLength text) := by
  have greatest :
      greatestMatch (rule :: others) text = rule.pattern.matchLength text :=
    Nat.max_eq_left longest
  simp [firstLongest, greatest, Nat.ne_of_gt matched]

/--
Searching on from a match found so far keeps it unless a later rule matches
more.
-/
theorem foldl_extend
    (rules : List Rule)
    (text : List Char)
    (found : Match) :
    rules.foldl (Match.extend text) found =
      if found.length < greatestMatch rules text then
        firstLongest rules text
      else
        found := by
  induction rules generalizing found with
  | nil =>
      simp [greatestMatch]
  | cons rule others inductionHypothesis =>
      rw [List.foldl_cons, inductionHypothesis, Match.extend]
      have greatest :
          greatestMatch (rule :: others) text =
            max (rule.pattern.matchLength text) (greatestMatch others text) :=
        rfl
      -- The first rule takes over or not; either way it is then compared with
      -- the greatest match among the others.
      by_cases longer : found.length < rule.pattern.matchLength text
      · have kept :
            Match.length (some (rule.kind, rule.pattern.matchLength text)) =
              rule.pattern.matchLength text :=
          rfl
        have counts : found.length < greatestMatch (rule :: others) text := by
          omega
        rw [if_pos longer, kept, if_pos counts]
        by_cases later :
            rule.pattern.matchLength text < greatestMatch others text
        · rw [if_pos later, firstLongest_cons_of_lt later]
        · rw [if_neg later, firstLongest_cons_of_ge (by omega) (by omega)]
      · rw [if_neg longer]
        by_cases later : found.length < greatestMatch others text
        · have counts : found.length < greatestMatch (rule :: others) text := by
            omega
          rw [if_pos later, if_pos counts, firstLongest_cons_of_lt (by omega)]
        · have fails : ¬ found.length < greatestMatch (rule :: others) text := by
            omega
          rw [if_neg later, if_neg fails]

/-- The search finds the first of the longest matches. -/
theorem longestMatch_eq_firstLongest
    (rules : List Rule)
    (text : List Char) :
    longestMatch rules text = firstLongest rules text := by
  rw [longestMatch, foldl_extend]
  by_cases unmatched : greatestMatch rules text = 0
  · simp [firstLongest, unmatched, Match.length]
  · have positive : 0 < greatestMatch rules text :=
      Nat.pos_of_ne_zero unmatched
    simp [Match.length, positive]

/-- A longest match is the match of a rule of the table, and not empty. -/
theorem rule_of_longestMatch
    {rules : List Rule}
    {text : List Char}
    {kind : TokenKind}
    {length : Nat}
    (found : longestMatch rules text = some (kind, length)) :
    ∃ rule ∈ rules,
      rule.kind = kind ∧
        rule.pattern.matchLength text = length ∧ 0 < length := by
  have positive := longestMatch_nonempty rules text kind length found
  rw [longestMatch_eq_firstLongest, firstLongest] at found
  split at found
  · cases found
  · obtain ⟨rule, first, same⟩ := Option.map_eq_some_iff.mp found
    have longest := List.find?_some first
    cases same
    exact ⟨rule, List.mem_of_find?_eq_some first, rfl, by simpa using longest,
      positive⟩

/-! ### Matches lie in the text -/

/-- A fraction is made of the digits before the point, the point, and more. -/
theorem floatRun_le_length (text : List Char) : floatRun text ≤ text.length := by
  rw [floatRun]
  split
  · rename_i fraction ahead
    split
    · exact Nat.zero_le _
    · have whole :
          digitRun text + (text.dropWhile Char.isDigit).length =
            text.length := by
        rw [digitRun, ← List.length_append, List.takeWhile_append_dropWhile]
      have within : digitRun fraction ≤ fraction.length :=
        (List.takeWhile_prefix _).length_le
      rw [ahead, List.length_cons] at whole
      omega
  · exact Nat.zero_le _

/-- A match is never longer than the text. -/
theorem matchLength_le_length
    (pattern : Pattern)
    (text : List Char) :
    pattern.matchLength text ≤ text.length := by
  cases pattern with
  | spelled spelling =>
      rw [Pattern.matchLength]
      split
      · rename_i found
        rw [← String.length_toList]
        exact (List.isPrefixOf_iff_prefix.mp found).length_le
      · exact Nat.zero_le _
  | identifier =>
      cases text with
      | nil =>
          exact Nat.le_refl _
      | cons c rest =>
          have within :
              (rest.takeWhile continuesIdentifier).length ≤ rest.length :=
            (List.takeWhile_prefix _).length_le
          rw [Pattern.matchLength, identifierRun, List.length_cons]
          split <;> omega
  | float =>
      exact floatRun_le_length text
  | number =>
      exact (List.takeWhile_prefix _).length_le

/-- The longest match is never longer than the text. -/
theorem length_le_of_longestMatch
    {rules : List Rule}
    {text : List Char}
    {kind : TokenKind}
    {length : Nat}
    (found : longestMatch rules text = some (kind, length)) :
    length ≤ text.length := by
  obtain ⟨rule, _, _, longest, _⟩ := rule_of_longestMatch found
  rw [← longest]
  exact matchLength_le_length rule.pattern text

/-- The tokens that the rules of the language find are no layout tokens. -/
theorem isLayout_of_longestMatch
    {text : List Char}
    {kind : TokenKind}
    {length : Nat}
    (found : longestMatch Rule.all text = some (kind, length)) :
    kind.isLayout = false := by
  obtain ⟨rule, member, sameKind, _, _⟩ := rule_of_longestMatch found
  have lexical : ∀ rule ∈ Rule.all, rule.kind.isLayout = false := by
    decide
  rw [← sameKind]
  exact lexical rule member

/-! ### Separators -/

/-- A blank, a comment mark, or a character of a line terminator. -/
def separates (c : Char) : Bool :=
  isBlank c || c == '#' || c == '\n' || c == '\r'

/-- A text that can lengthen no token before it. -/
def Separated (text : List Char) : Prop :=
  ∀ c, text.head? = some c → separates c = true

/-- Whether a pattern can be told from the text before the next separator. -/
def Pattern.isSolid : Pattern → Bool
  | .spelled spelling => spelling.toList.all fun c => !separates c
  | _ => true

/-- The separators, one by one. -/
theorem separates_iff
    {c : Char} :
    separates c = true ↔
      c = ' ' ∨ c = '\t' ∨ c = '#' ∨ c = '\n' ∨ c = '\r' := by
  simp [separates, isBlank, or_assoc]

/-- A separator is no digit. -/
theorem isDigit_of_separates
    {c : Char}
    (separator : separates c = true) :
    c.isDigit = false := by
  rcases separates_iff.mp separator with rfl | rfl | rfl | rfl | rfl <;> decide

/-- A separator does not start an identifier. -/
theorem startsIdentifier_of_separates
    {c : Char}
    (separator : separates c = true) :
    startsIdentifier c = false := by
  rcases separates_iff.mp separator with rfl | rfl | rfl | rfl | rfl <;> decide

/-- A separator does not continue an identifier. -/
theorem continuesIdentifier_of_separates
    {c : Char}
    (separator : separates c = true) :
    continuesIdentifier c = false := by
  rcases separates_iff.mp separator with rfl | rfl | rfl | rfl | rfl <;> decide

section

variable {accepts : Char → Bool}
variable {tail : List Char}

/-- A run ends where a text begins whose first character is not accepted. -/
theorem takeWhile_append_of_stop
    (stops : ∀ c, tail.head? = some c → accepts c = false)
    (text : List Char) :
    (text ++ tail).takeWhile accepts = text.takeWhile accepts := by
  induction text with
  | nil =>
      cases tail with
      | nil =>
          rfl
      | cons c rest =>
          simp [stops c rfl]
  | cons c rest inductionHypothesis =>
      simp only [List.cons_append, List.takeWhile_cons, inductionHypothesis]

/-- Such a text is left whole when a run before it is dropped. -/
theorem dropWhile_append_of_stop
    (stops : ∀ c, tail.head? = some c → accepts c = false)
    (text : List Char) :
    (text ++ tail).dropWhile accepts = text.dropWhile accepts ++ tail := by
  induction text with
  | nil =>
      cases tail with
      | nil =>
          rfl
      | cons c rest =>
          simp [stops c rfl]
  | cons c rest inductionHypothesis =>
      simp only [List.cons_append, List.dropWhile_cons, inductionHypothesis]
      split <;> rfl

end

/-! ### Matches end at separators -/

section

variable {tail : List Char}

/-- A digit run ends at a separator. -/
theorem digitRun_append
    (separated : Separated tail)
    (text : List Char) :
    digitRun (text ++ tail) = digitRun text := by
  rw [digitRun, digitRun, takeWhile_append_of_stop]
  exact fun c first => isDigit_of_separates (separated c first)

/-- An identifier ends at a separator. -/
theorem identifierRun_append
    (separated : Separated tail)
    (text : List Char) :
    identifierRun (text ++ tail) = identifierRun text := by
  cases text with
  | nil =>
      cases tail with
      | nil =>
          rfl
      | cons c rest =>
          simp [identifierRun,
            startsIdentifier_of_separates (separated c rfl)]
  | cons c rest =>
      rw [List.cons_append, identifierRun, identifierRun,
        takeWhile_append_of_stop]
      exact fun c first => continuesIdentifier_of_separates (separated c first)

/-- A decimal fraction ends at a separator. -/
theorem floatRun_append
    (separated : Separated tail)
    (text : List Char) :
    floatRun (text ++ tail) = floatRun text := by
  have stops : ∀ c, tail.head? = some c → c.isDigit = false :=
    fun c first => isDigit_of_separates (separated c first)
  rw [floatRun, floatRun, dropWhile_append_of_stop stops,
    digitRun_append separated]
  cases text.dropWhile Char.isDigit with
  | nil =>
      cases tail with
      | nil =>
          rfl
      | cons c rest =>
          have separator := separated c rfl
          rcases separates_iff.mp separator with
            rfl | rfl | rfl | rfl | rfl <;> rfl
  | cons point fraction =>
      by_cases isPoint : point = '.'
      · subst isPoint
        simp only [List.cons_append, digitRun_append separated]
      · simp [isPoint]

/-- A spelling without separators ends before one. -/
theorem isPrefixOf_append
    {spelling : List Char}
    (solid : ∀ c ∈ spelling, separates c = false)
    (separated : Separated tail)
    (text : List Char) :
    spelling.isPrefixOf (text ++ tail) = spelling.isPrefixOf text := by
  induction text generalizing spelling with
  | nil =>
      cases spelling with
      | nil =>
          simp
      | cons c others =>
          cases tail with
          | nil =>
              rfl
          | cons d rest =>
              have different : c ≠ d := by
                intro same
                have separator := separated d rfl
                rw [← same, solid c List.mem_cons_self] at separator
                exact Bool.noConfusion separator
              simp [List.isPrefixOf, different]
  | cons d rest inductionHypothesis =>
      cases spelling with
      | nil =>
          simp
      | cons c others =>
          have inner :=
            inductionHypothesis
              (fun c member => solid c (List.mem_cons_of_mem _ member))
          simp only [List.cons_append, List.isPrefixOf, inner]

/-- What a pattern matches does not depend on the text behind a separator. -/
theorem matchLength_append
    {pattern : Pattern}
    (solid : pattern.isSolid = true)
    (separated : Separated tail)
    (text : List Char) :
    pattern.matchLength (text ++ tail) = pattern.matchLength text := by
  cases pattern with
  | spelled spelling =>
      have clear : ∀ c ∈ spelling.toList, separates c = false := by
        simpa [Pattern.isSolid] using solid
      simp only [Pattern.matchLength, isPrefixOf_append clear separated]
  | identifier =>
      exact identifierRun_append separated text
  | float =>
      exact floatRun_append separated text
  | number =>
      exact digitRun_append separated text

/-- No rule of the language covers a separator. -/
theorem isSolid_of_mem_all
    {rule : Rule}
    (member : rule ∈ Rule.all) :
    rule.pattern.isSolid = true := by
  revert rule
  decide

/-- The longest match does not depend on the text behind a separator. -/
theorem longestMatch_append
    (separated : Separated tail)
    (text : List Char) :
    longestMatch Rule.all (text ++ tail) = longestMatch Rule.all text := by
  unfold longestMatch
  have same :
      ∀ found, ∀ rule ∈ Rule.all,
        Match.extend (text ++ tail) found rule =
          Match.extend text found rule := by
    intro found rule member
    simp only [Match.extend,
      matchLength_append (isSolid_of_mem_all member) separated]
  exact List.foldl_ext _ _ none same

end

end LayoutLexer
