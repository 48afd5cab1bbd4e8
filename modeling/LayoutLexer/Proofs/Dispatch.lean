import LayoutLexer.Proofs.CheckedScan
import LayoutLexer.Proofs.MaximalMunch
import Mathlib.Computability.RegularExpressions
import Mathlib.Data.List.Rotate
import Mathlib.Data.Nat.Find

namespace LayoutLexer

/-!
# Telling tokens apart without rules

Which token a text starts with can be told without the rule table. A word is a
reserved word or an identifier, and the vocabulary knows which; failing a word
there may be a decimal fraction, failing that a number, then an operator of two
characters and at last a single mark. Words, fractions and numbers are given by
regular expressions, of which the longest match counts.

The first character decides which of these can apply (`Spells.opening`), so the
dispatcher finds the longest token (`munches_dispatch`), and with it what the rules
find.
-/

/-! ### Regular expressions -/

namespace Shape

/-- The letters of ASCII. -/
def letters : List Char :=
  "ABCDEFGHIJKLMNOPQRSTUVWXYZabcdefghijklmnopqrstuvwxyz".toList

/-- The digits of ASCII. -/
def digits : List Char :=
  "0123456789".toList

/-- One of some characters. -/
def oneOf (characters : List Char) : RegularExpression Char :=
  (characters.map .char).sum

/-- Words: `[A-Za-z_][A-Za-z0-9_]*`. -/
def word : RegularExpression Char :=
  oneOf ('_' :: letters) * (oneOf ('_' :: letters ++ digits)).star

/-- Numbers: `[0-9]+`. -/
def number : RegularExpression Char :=
  oneOf digits * (oneOf digits).star

/-- Decimal fractions: `[0-9]*\.[0-9]+`. -/
def fraction : RegularExpression Char :=
  (oneOf digits).star * (.char '.' * number)

section

variable {characters text : List Char}

theorem mem_oneOf :
    text ∈ (oneOf characters).matches' ↔ ∃ c ∈ characters, text = [c] := by
  induction characters with
  | nil =>
      simp [oneOf]
  | cons first others inductionHypothesis =>
      have single :
          text ∈ (RegularExpression.char first).matches' ↔ text = [first] :=
        Iff.rfl
      rw [oneOf] at inductionHypothesis
      rw [oneOf, List.map_cons, List.sum_cons, RegularExpression.matches'_add,
        Language.mem_add, single, inductionHypothesis, List.exists_mem_cons_iff]

theorem mem_star_oneOf :
    text ∈ (oneOf characters).star.matches' ↔ ∀ c ∈ text, c ∈ characters := by
  rw [RegularExpression.matches'_star, Language.mem_kstar]
  constructor
  · rintro ⟨parts, rfl, matched⟩ c member
    obtain ⟨part, isPart, inPart⟩ := List.mem_flatten.mp member
    obtain ⟨other, listed, rfl⟩ := mem_oneOf.mp (matched part isPart)
    rwa [List.mem_singleton.mp inPart]
  · intro listed
    refine ⟨text.map ([·]), ?_, ?_⟩
    · rw [← List.flatMap_def, List.flatMap_singleton']
    · intro part isPart
      obtain ⟨c, member, rfl⟩ := List.mem_map.mp isPart
      exact mem_oneOf.mpr ⟨c, listed c member, rfl⟩

end

/-- A list of characters is a class in ASCII if it is so code by code. -/
theorem mem_iff_of_codes
    {listed : List Char}
    {accepts : Char → Bool}
    (accepted : listed.all accepts = true)
    (ascii : ∀ c, accepts c = true → Bytes.IsAscii c)
    (codes :
      ∀ code < 128, accepts (Char.ofNat code) = true → Char.ofNat code ∈ listed)
    (c : Char) :
    c ∈ listed ↔ accepts c = true := by
  constructor
  · exact List.all_eq_true.mp accepted c
  · intro inClass
    have found := codes c.toNat (ascii c inClass)
    rw [Char.ofNat_toNat] at found
    exact found inClass

theorem mem_digits (c : Char) : c ∈ digits ↔ c.isDigit = true :=
  mem_iff_of_codes (by decide) (fun _ => Bytes.isAscii_of_isDigit) (by decide) c

theorem mem_first (c : Char) : c ∈ '_' :: letters ↔ startsIdentifier c = true :=
  mem_iff_of_codes (by decide) Bytes.reads_startsIdentifier.charactersAscii
    (by decide) c

theorem mem_later (c : Char) :
    c ∈ '_' :: letters ++ digits ↔ continuesIdentifier c = true :=
  mem_iff_of_codes (by decide) Bytes.reads_continuesIdentifier.charactersAscii
    (by decide) c

section

variable {text : List Char}

theorem mem_star_digits :
    text ∈ (oneOf digits).star.matches' ↔ Digits text := by
  rw [mem_star_oneOf]
  exact forall₂_congr fun c _ => mem_digits c

theorem mem_word :
    text ∈ word.matches' ↔
      ∃ c rest,
        text = c :: rest ∧
          startsIdentifier c = true ∧
          ∀ later ∈ rest, continuesIdentifier later = true := by
  rw [word, RegularExpression.matches'_mul, Language.mem_mul]
  constructor
  · rintro ⟨front, isFront, rest, isRest, rfl⟩
    obtain ⟨c, listed, rfl⟩ := mem_oneOf.mp isFront
    refine ⟨c, rest, rfl, (mem_first c).mp listed, ?_⟩
    intro later member
    exact (mem_later later).mp (mem_star_oneOf.mp isRest later member)
  · rintro ⟨c, rest, rfl, starts, continues⟩
    refine ⟨[c], mem_oneOf.mpr ⟨c, (mem_first c).mpr starts, rfl⟩, rest,
      mem_star_oneOf.mpr ?_, rfl⟩
    intro later member
    exact (mem_later later).mpr (continues later member)

theorem mem_number :
    text ∈ number.matches' ↔ text ≠ [] ∧ Digits text := by
  rw [number, RegularExpression.matches'_mul, Language.mem_mul]
  constructor
  · rintro ⟨front, isFront, rest, isRest, rfl⟩
    obtain ⟨c, listed, rfl⟩ := mem_oneOf.mp isFront
    exact ⟨List.cons_ne_nil c rest,
      List.forall_mem_cons.mpr ⟨(mem_digits c).mp listed, mem_star_digits.mp isRest⟩⟩
  · rintro ⟨present, areDigits⟩
    obtain ⟨c, rest, rfl⟩ := List.exists_cons_of_ne_nil present
    obtain ⟨isDigit, others⟩ := List.forall_mem_cons.mp areDigits
    exact ⟨[c], mem_oneOf.mpr ⟨c, (mem_digits c).mpr isDigit, rfl⟩, rest,
      mem_star_digits.mpr others, rfl⟩

theorem mem_fraction :
    text ∈ fraction.matches' ↔
      ∃ whole behind,
        text = whole ++ '.' :: behind ∧
          Digits whole ∧ behind ≠ [] ∧ Digits behind := by
  rw [fraction, RegularExpression.matches'_mul, RegularExpression.matches'_mul,
    RegularExpression.matches'_char, Language.mem_mul]
  constructor
  · rintro ⟨whole, isWhole, rest, isRest, rfl⟩
    obtain ⟨point, rfl, behind, isBehind, rfl⟩ := Language.mem_mul.mp isRest
    exact ⟨whole, behind, rfl, mem_star_digits.mp isWhole, mem_number.mp isBehind⟩
  · rintro ⟨whole, behind, rfl, areDigits, isBehind⟩
    exact ⟨whole, mem_star_digits.mpr areDigits, '.' :: behind,
      Language.mem_mul.mpr ⟨['.'], rfl, behind, mem_number.mpr isBehind, rfl⟩, rfl⟩

end

end Shape

/-! ### The dispatcher -/

/--
The length of the longest beginning of a text that an expression matches; zero if
there is none.
-/
def longestBeginning (expression : RegularExpression Char) (text : List Char) : Nat :=
  Nat.findGreatest (fun length => expression.rmatch (text.take length) = true)
    text.length

/-- A word is a reserved word or an identifier. -/
def wordKind (word : List Char) : TokenKind :=
  match Keyword.ofSpelling? (String.ofList word) with
  | some keyword =>
      .keyword keyword
  | none =>
      .identifier

/-- The operator that the first two characters spell. -/
def pairToken : List Char → Match
  | first :: second :: _ =>
      (Operator.ofSpelling? (String.ofList [first, second])).map fun symbol =>
        (.operator symbol, 2)
  | _ =>
      none

/-- The operator or punctuation mark that the first character spells. -/
def singleToken : List Char → Match
  | [] =>
      none
  | first :: _ =>
      match Operator.ofSpelling? (String.ofList [first]) with
      | some symbol =>
          some (.operator symbol, 1)
      | none =>
          (Punctuation.ofSpelling? (String.ofList [first])).map fun mark =>
            (.punctuation mark, 1)

/-- The token that two characters or one spell. -/
def symbolToken (text : List Char) : Match :=
  (pairToken text).or (singleToken text)

/--
The token at the start of a text: a word, else a decimal fraction, else a number,
else an operator of two characters, else a single operator or punctuation mark.
-/
def dispatch (text : List Char) : Match :=
  let word := longestBeginning Shape.word text
  let fraction := longestBeginning Shape.fraction text
  let number := longestBeginning Shape.number text
  if 0 < word then
    some (wordKind (text.take word), word)
  else if 0 < fraction then
    some (.float, fraction)
  else if 0 < number then
    some (.number, number)
  else
    symbolToken text

section

variable {expression : RegularExpression Char}
variable {text word : List Char}

theorem take_longestBeginning_mem
    (positive : 0 < longestBeginning expression text) :
    text.take (longestBeginning expression text) ∈ expression.matches' :=
  (expression.rmatch_iff_matches' _).mp
    (Nat.findGreatest_of_ne_zero rfl (Nat.ne_of_gt positive))

theorem length_take_longestBeginning :
    (text.take (longestBeginning expression text)).length =
      longestBeginning expression text :=
  List.length_take_of_le (Nat.findGreatest_le text.length)

theorem length_le_longestBeginning
    (begins : word <+: text)
    (matched : word ∈ expression.matches') :
    word.length ≤ longestBeginning expression text := by
  apply Nat.le_findGreatest begins.length_le
  rw [← List.prefix_iff_eq_take.mp begins]
  exact (expression.rmatch_iff_matches' word).mpr matched

end

/-! ### Looking up spellings -/

/-- Looking up a text finds what is spelled so, since a text spells one kind only. -/
theorem find?_spelling_eq_some_iff
    {vocabulary : List α}
    {spelling : α → String}
    {kind : α → TokenKind}
    {text : String}
    {entry : α}
    (complete : ∀ entry, entry ∈ vocabulary)
    (spells : ∀ entry, Spells (kind entry) (spelling entry).toList)
    (different : ∀ {first second}, kind first = kind second → first = second) :
    vocabulary.find? (fun entry => spelling entry == text) = some entry ↔
      spelling entry = text := by
  constructor
  · intro found
    simpa using List.find?_some found
  · intro spelled
    cases found : vocabulary.find? (fun entry => spelling entry == text) with
    | none =>
        have unmatched := List.find?_eq_none.mp found entry (complete entry)
        simp [spelled] at unmatched
    | some other =>
        have spelledOther : spelling other = text := by
          simpa using List.find?_some found
        have spellsEntry := spells entry
        rw [spelled, ← spelledOther] at spellsEntry
        rw [different ((spells other).kind_eq spellsEntry)]

theorem Keyword.ofSpelling?_eq_some_iff
    {text : String}
    {word : Keyword} :
    Keyword.ofSpelling? text = some word ↔ word.spelling = text :=
  find?_spelling_eq_some_iff mem_all Spells.keyword TokenKind.keyword.inj

theorem Operator.ofSpelling?_eq_some_iff
    {text : String}
    {symbol : Operator} :
    Operator.ofSpelling? text = some symbol ↔ symbol.spelling = text :=
  find?_spelling_eq_some_iff mem_all Spells.operator TokenKind.operator.inj

theorem Punctuation.ofSpelling?_eq_some_iff
    {text : String}
    {mark : Punctuation} :
    Punctuation.ofSpelling? text = some mark ↔ mark.spelling = text :=
  find?_spelling_eq_some_iff mem_all Spells.punctuation TokenKind.punctuation.inj

/-- A word spells the kind that the vocabulary gives it. -/
theorem spells_wordKind
    {word : List Char}
    (matched : word ∈ Shape.word.matches') :
    Spells (wordKind word) word := by
  rw [wordKind]
  cases found : Keyword.ofSpelling? (String.ofList word) with
  | some keyword =>
      have spelled : keyword.spelling.toList = word := by
        rw [Keyword.ofSpelling?_eq_some_iff.mp found, String.toList_ofList]
      rw [← spelled]
      exact .keyword keyword
  | none =>
      obtain ⟨c, rest, rfl, starts, continues⟩ := Shape.mem_word.mp matched
      refine .identifier starts continues ?_
      intro keyword same
      rw [same, String.ofList_toList,
        Keyword.ofSpelling?_eq_some_iff.mpr rfl] at found
      cases found

/-! ### The first character decides -/

/-- What a token can be, by its first character. -/
inductive Opening where
  | word
  | figure
  | symbol
  deriving Repr, DecidableEq

/-- A letter or an underscore opens a word, a digit or a point a figure. -/
def opening (c : Char) : Opening :=
  if startsIdentifier c then
    .word
  else if c.isDigit || c == '.' then
    .figure
  else
    .symbol

/-- The texts of the tokens that open in some way. -/
def Opening.Admits (text : List Char) : Opening → Prop
  | .word =>
      text ∈ Shape.word.matches'
  | .figure =>
      text ∈ Shape.fraction.matches' ∨ text ∈ Shape.number.matches'
  | .symbol =>
      (∃ symbol : Operator, text = symbol.spelling.toList) ∨
        ∃ mark : Punctuation, text = mark.spelling.toList

section

variable {text : List Char}

theorem opening_of_mem_word
    (matched : text ∈ Shape.word.matches') :
    text.head?.map opening = some .word := by
  obtain ⟨c, rest, rfl, starts, _⟩ := Shape.mem_word.mp matched
  rw [List.head?_cons, Option.map_some, opening, if_pos starts]

theorem opening_of_isDigit
    {c : Char}
    (digit : c.isDigit = true) :
    opening c = .figure := by
  rw [opening, startsIdentifier_of_isDigit digit, digit]
  rfl

theorem opening_of_mem_number
    (matched : text ∈ Shape.number.matches') :
    text.head?.map opening = some .figure := by
  obtain ⟨present, areDigits⟩ := Shape.mem_number.mp matched
  obtain ⟨c, rest, rfl⟩ := List.exists_cons_of_ne_nil present
  rw [List.head?_cons, Option.map_some,
    opening_of_isDigit (areDigits c List.mem_cons_self)]

theorem opening_of_mem_fraction
    (matched : text ∈ Shape.fraction.matches') :
    text.head?.map opening = some .figure := by
  obtain ⟨whole, behind, rfl, areDigits, _⟩ := Shape.mem_fraction.mp matched
  cases whole with
  | nil =>
      rfl
  | cons c rest =>
      rw [List.cons_append, List.head?_cons, Option.map_some,
        opening_of_isDigit (areDigits c List.mem_cons_self)]

/-- A text that spells a token is one of those that its first character admits. -/
theorem Spells.opening
    {kind : TokenKind}
    (spells : Spells kind text) :
    ∃ opened, text.head?.map LayoutLexer.opening = some opened ∧ opened.Admits text := by
  have ofWord :
      text ∈ Shape.word.matches' →
        ∃ opened,
          text.head?.map LayoutLexer.opening = some opened ∧ opened.Admits text :=
    fun matched => ⟨.word, opening_of_mem_word matched, matched⟩
  cases spells with
  | keyword word =>
      apply ofWord
      rw [Shape.mem_word]
      cases word <;>
        exact ⟨_, _, rfl, by decide, List.all_eq_true.mp (by decide)⟩
  | operator symbol =>
      refine ⟨.symbol, ?_, .inl ⟨symbol, rfl⟩⟩
      cases symbol <;> decide
  | punctuation mark =>
      refine ⟨.symbol, ?_, .inr ⟨mark, rfl⟩⟩
      cases mark <;> decide
  | identifier starts continues _ =>
      exact ofWord (Shape.mem_word.mpr ⟨_, _, rfl, starts, continues⟩)
  | number present areDigits =>
      have matched : text ∈ Shape.number.matches' :=
        Shape.mem_number.mpr ⟨present, areDigits⟩
      exact ⟨.figure, opening_of_mem_number matched, .inr matched⟩
  | @float whole behind areDigits present behindDigits =>
      have matched : whole ++ '.' :: behind ∈ Shape.fraction.matches' :=
        Shape.mem_fraction.mpr ⟨whole, behind, rfl, areDigits, present, behindDigits⟩
      exact ⟨.figure, opening_of_mem_fraction matched, .inl matched⟩

/-- What spells a token opens like any other beginning of the same text. -/
theorem Spells.admits
    {kind : TokenKind}
    {word other : List Char}
    {opened : Opening}
    (spells : Spells kind word)
    (begins : word <+: text)
    (otherBegins : other <+: text)
    (opens : other.head?.map LayoutLexer.opening = some opened) :
    opened.Admits word := by
  obtain ⟨openedWord, opensWord, admitted⟩ := spells.opening
  obtain ⟨more, rfl⟩ := begins
  obtain ⟨behind, same⟩ := otherBegins
  cases word with
  | nil =>
      cases opensWord
  | cons c rest =>
      cases other with
      | nil =>
          cases opens
      | cons d others =>
          rw [(List.cons.inj same).1] at opens
          rw [← Option.some.inj (opensWord.symm.trans opens)]
          exact admitted

/-- A number is no longer than a fraction that starts the same text. -/
theorem length_number_le
    {number fraction : List Char}
    (isNumber : number ∈ Shape.number.matches')
    (isFraction : fraction ∈ Shape.fraction.matches')
    (numberBegins : number <+: text)
    (fractionBegins : fraction <+: text) :
    number.length ≤ fraction.length := by
  rcases List.prefix_or_prefix_of_prefix numberBegins fractionBegins with
      within | longer
  · exact within.length_le
  · obtain ⟨whole, behind, rfl, _⟩ := Shape.mem_fraction.mp isFraction
    have isDigit := (Shape.mem_number.mp isNumber).2 '.' (longer.subset (by simp))
    cases isDigit

/-! ### Symbols -/

theorem spells_of_pairToken
    {kind : TokenKind}
    {length : Nat}
    (found : pairToken text = some (kind, length)) :
    length = 2 ∧ 2 ≤ text.length ∧ Spells kind (text.take 2) := by
  rw [pairToken.eq_def] at found
  split at found
  · rename_i first second rest
    obtain ⟨symbol, isSymbol, same⟩ := Option.map_eq_some_iff.mp found
    obtain ⟨rfl, rfl⟩ := Prod.mk.inj same
    have spelled : symbol.spelling.toList = [first, second] := by
      rw [Operator.ofSpelling?_eq_some_iff.mp isSymbol, String.toList_ofList]
    refine ⟨rfl, by simp, ?_⟩
    rw [List.take_succ_cons, List.take_succ_cons, List.take_zero, ← spelled]
    exact .operator symbol
  · cases found

theorem spells_of_singleToken
    {kind : TokenKind}
    {length : Nat}
    (found : singleToken text = some (kind, length)) :
    length = 1 ∧ 1 ≤ text.length ∧ Spells kind (text.take 1) := by
  cases text with
  | nil =>
      cases found
  | cons first rest =>
      rw [singleToken] at found
      cases isSymbol : Operator.ofSpelling? (String.ofList [first]) with
      | some symbol =>
          rw [isSymbol] at found
          obtain ⟨rfl, rfl⟩ := Prod.mk.inj (Option.some.inj found)
          have spelled : symbol.spelling.toList = [first] := by
            rw [Operator.ofSpelling?_eq_some_iff.mp isSymbol, String.toList_ofList]
          refine ⟨rfl, by simp, ?_⟩
          rw [List.take_succ_cons, List.take_zero, ← spelled]
          exact .operator symbol
      | none =>
          rw [isSymbol] at found
          obtain ⟨mark, isMark, same⟩ := Option.map_eq_some_iff.mp found
          obtain ⟨rfl, rfl⟩ := Prod.mk.inj same
          have spelled : mark.spelling.toList = [first] := by
            rw [Punctuation.ofSpelling?_eq_some_iff.mp isMark, String.toList_ofList]
          refine ⟨rfl, by simp, ?_⟩
          rw [List.take_succ_cons, List.take_zero, ← spelled]
          exact .punctuation mark

theorem spells_of_symbolToken
    {kind : TokenKind}
    {length : Nat}
    (found : symbolToken text = some (kind, length)) :
    length ≤ text.length ∧ Spells kind (text.take length) := by
  rcases Option.or_eq_some_iff.mp found with isPair | ⟨_, isSingle⟩
  · obtain ⟨rfl, within, spells⟩ := spells_of_pairToken isPair
    exact ⟨within, spells⟩
  · obtain ⟨rfl, within, spells⟩ := spells_of_singleToken isSingle
    exact ⟨within, spells⟩

/-- A single mark is found, unless two characters spell an operator. -/
theorem one_le_length_symbolToken
    (single : ∃ kind, singleToken text = some (kind, 1)) :
    1 ≤ (symbolToken text).length := by
  obtain ⟨kind, isSingle⟩ := single
  cases pair : pairToken text with
  | none =>
      rw [symbolToken, pair, isSingle]
      exact Nat.le_refl 1
  | some token =>
      rw [symbolToken, pair, Option.some_or]
      rw [Match.length, Option.map_some, Option.getD_some,
        (spells_of_pairToken pair).1]
      decide

/-- No operator or punctuation mark at the start of a text is missed. -/
theorem length_le_symbolToken
    {word : List Char}
    (isSymbol : Opening.symbol.Admits word)
    (begins : word <+: text) :
    word.length ≤ (symbolToken text).length := by
  have short :
      ∀ symbol : Operator,
        (∃ a, symbol.spelling = String.ofList [a]) ∨
          ∃ a b, symbol.spelling = String.ofList [a, b] := by
    intro symbol
    cases symbol <;> first | exact .inl ⟨_, rfl⟩ | exact .inr ⟨_, _, rfl⟩
  have single : ∀ mark : Punctuation, ∃ a, mark.spelling = String.ofList [a] := by
    intro mark
    cases mark <;> exact ⟨_, rfl⟩
  obtain ⟨more, rfl⟩ := begins
  rcases isSymbol with ⟨symbol, rfl⟩ | ⟨mark, rfl⟩
  · rcases short symbol with ⟨a, spelled⟩ | ⟨a, b, spelled⟩
    · have found := Operator.ofSpelling?_eq_some_iff.mpr spelled
      rw [spelled, String.toList_ofList]
      apply one_le_length_symbolToken
      exact ⟨.operator symbol, by rw [List.cons_append, singleToken, found]⟩
    · have found := Operator.ofSpelling?_eq_some_iff.mpr spelled
      rw [spelled, String.toList_ofList]
      rw [List.cons_append, List.cons_append, symbolToken, pairToken, found,
        Option.map_some, Option.some_or]
      exact Nat.le_refl 2
  · obtain ⟨a, spelled⟩ := single mark
    have found := Punctuation.ofSpelling?_eq_some_iff.mpr spelled
    rw [spelled, String.toList_ofList]
    apply one_le_length_symbolToken
    cases operator : Operator.ofSpelling? (String.ofList [a]) with
    | some symbol =>
        exact ⟨.operator symbol, by rw [List.cons_append, singleToken, operator]⟩
    | none =>
        refine ⟨.punctuation mark, ?_⟩
        rw [List.cons_append, singleToken, operator, found]
        rfl

end

/-! ### What the dispatcher finds -/

/-- The dispatcher finds the longest beginning that spells a token. -/
theorem munches_dispatch
    (text : List Char) :
    Munches text (dispatch text) := by
  have begins :
      ∀ expression, text.take (longestBeginning expression text) <+: text :=
    fun expression => List.take_prefix _ text
  have munchesToken :
      ∀ {expression kind},
        Spells kind (text.take (longestBeginning expression text)) →
        (∀ other word,
          Spells other word →
          word <+: text →
          word.length ≤ longestBeginning expression text) →
        Munches text (some (kind, longestBeginning expression text)) := by
    intro expression kind spells longest
    refine ⟨?_, longest⟩
    rintro _ _ ⟨rfl, rfl⟩
    exact ⟨Nat.findGreatest_le text.length, spells⟩
  rw [dispatch]
  by_cases hasWord : 0 < longestBeginning Shape.word text
  · rw [if_pos hasWord]
    have matched := take_longestBeginning_mem hasWord
    refine munchesToken (spells_wordKind matched) ?_
    intro kind word spells wordBegins
    exact length_le_longestBeginning wordBegins
      (spells.admits wordBegins (begins Shape.word) (opening_of_mem_word matched))
  rw [if_neg hasWord]
  by_cases hasFraction : 0 < longestBeginning Shape.fraction text
  · rw [if_pos hasFraction]
    have matched := take_longestBeginning_mem hasFraction
    obtain ⟨whole, behind, shape, areDigits, present, behindDigits⟩ :=
      Shape.mem_fraction.mp matched
    refine munchesToken (shape ▸ .float areDigits present behindDigits) ?_
    intro kind word spells wordBegins
    rcases spells.admits wordBegins (begins Shape.fraction)
        (opening_of_mem_fraction matched) with isFraction | isNumber
    · exact length_le_longestBeginning wordBegins isFraction
    · rw [← length_take_longestBeginning]
      exact length_number_le isNumber matched wordBegins (begins Shape.fraction)
  rw [if_neg hasFraction]
  by_cases hasNumber : 0 < longestBeginning Shape.number text
  · rw [if_pos hasNumber]
    have matched := take_longestBeginning_mem hasNumber
    obtain ⟨present, areDigits⟩ := Shape.mem_number.mp matched
    refine munchesToken (.number present areDigits) ?_
    intro kind word spells wordBegins
    rcases spells.admits wordBegins (begins Shape.number)
        (opening_of_mem_number matched) with isFraction | isNumber
    · have bound := length_le_longestBeginning wordBegins isFraction
      omega
    · exact length_le_longestBeginning wordBegins isNumber
  rw [if_neg hasNumber]
  -- No word and no figure starts the text, so only symbols are left.
  refine ⟨fun _ _ found => spells_of_symbolToken found, ?_⟩
  intro kind word spells wordBegins
  obtain ⟨opened, _, admitted⟩ := spells.opening
  cases opened with
  | word =>
      have bound := length_le_longestBeginning wordBegins admitted
      omega
  | figure =>
      rcases admitted with isFraction | isNumber
      · have bound := length_le_longestBeginning wordBegins isFraction
        omega
      · have bound := length_le_longestBeginning wordBegins isNumber
        omega
  | symbol =>
      exact length_le_symbolToken admitted wordBegins

-- A point without digits behind it does not lengthen a number.
example : dispatch "3.x".toList = some (.number, 1) := by
  decide +kernel

/--
The rules find what the dispatcher finds, by characters and by bytes alike. No
longer beginning of the text spells a token, and the rules find the same in every
order that keeps keywords before identifiers.
-/
theorem longestMatch_dispatches
    (text : List Char) :
    longestMatch Rule.all text = dispatch text ∧
      Checked.longestMatch Rule.all (String.ofList text) = some (dispatch text) ∧
      (∀ kind word,
        Spells kind word →
        word <+: text →
        word.length ≤ (longestMatch Rule.all text).length) ∧
      ∀ rules,
        Rule.Arranged rules →
        longestMatch rules text = longestMatch Rule.all text := by
  have munches := Rule.arranged_all.munches text
  have same : longestMatch Rule.all text = dispatch text :=
    munches.unique (munches_dispatch text)
  refine ⟨same, ?_, munches.longest, ?_⟩
  · rw [Checked.longestMatch_eq, same]
  · intro rules arranged
    exact (arranged.munches text).unique munches

/--
With keywords and identifiers behind all other rules, a word that goes on behind a
reserved one is still an identifier.
-/
theorem longestMatch_dispatches_rotated :
    Rule.Arranged (Rule.all.rotate 13) ∧
      longestMatch (Rule.all.rotate 13) "or_else=".toList = some (.identifier, 7) ∧
      dispatch "or_else=".toList = some (.identifier, 7) ∧
      Spells (.keyword .orKw) "or".toList ∧
      "or".toList.length ≤ (longestMatch Rule.all "or_else=".toList).length := by
  have arranged : Rule.Arranged (Rule.all.rotate 13) := by
    refine ⟨List.rotate_perm Rule.all 13, ?_⟩
    intro word
    cases word <;> decide
  obtain ⟨same, _, longest, reordered⟩ := longestMatch_dispatches "or_else=".toList
  have found :
      longestMatch Rule.all "or_else=".toList = some (.identifier, 7) := by
    decide +kernel
  have spells : Spells (.keyword .orKw) "or".toList :=
    .keyword .orKw
  exact ⟨arranged, (reordered _ arranged).trans found, same.symm.trans found, spells,
    longest _ _ spells (by decide)⟩

end LayoutLexer
