import LayoutLexer.Token

namespace LayoutLexer

/-!
# Scanning

Within a line, the scanner looks at the text ahead and says what stands first:
a run of blanks, a comment, a line terminator, a token, or a character that
starts none. Tokens are found by longest match over a table of rules; among
matches of the same length the earlier rule wins, which makes `if` a keyword
and `iffy` an identifier. Lengths count characters.

The main statement is that scanning makes progress (`drop_scan_lt`): whatever is
read, the text behind it is shorter.
-/

/-- A space or a tab. -/
def isBlank (c : Char) : Bool :=
  c == ' ' || c == '\t'

/-- A letter or an underscore. -/
def startsIdentifier (c : Char) : Bool :=
  c.isAlpha || c == '_'

/-- A letter, a digit or an underscore. -/
def continuesIdentifier (c : Char) : Bool :=
  c.isAlphanum || c == '_'

/-- The length of the blank run at the start of a text. -/
def blankRun (text : List Char) : Nat :=
  (text.takeWhile isBlank).length

/-- The length of the digit run at the start of a text. -/
def digitRun (text : List Char) : Nat :=
  (text.takeWhile Char.isDigit).length

/-- The length of the identifier at the start of a text, or zero. -/
def identifierRun : List Char → Nat
  | [] =>
      0
  | c :: rest =>
      if startsIdentifier c then
        1 + (rest.takeWhile continuesIdentifier).length
      else
        0

/--
The length of the decimal fraction at the start of a text, or zero. The digits
before the point may be missing, those after it may not.
-/
def floatRun (text : List Char) : Nat :=
  match text.dropWhile Char.isDigit with
  | '.' :: fraction =>
      if digitRun fraction = 0 then
        0
      else
        digitRun text + 1 + digitRun fraction
  | _ =>
      0

/-- How a rule recognizes its text. -/
inductive Pattern where
  | spelled (spelling : String)
  | identifier
  | float
  | number
  deriving Repr, DecidableEq

/-- The length of the match at the start of a text; zero if there is none. -/
def Pattern.matchLength (text : List Char) : Pattern → Nat
  | .spelled spelling =>
      if spelling.toList.isPrefixOf text then
        spelling.length
      else
        0
  | .identifier =>
      identifierRun text
  | .float =>
      floatRun text
  | .number =>
      digitRun text

/-- A kind of token and the texts it covers. -/
structure Rule where
  kind : TokenKind
  pattern : Pattern
  deriving Repr, DecidableEq

namespace Rule

/-- The rule of a reserved word. -/
def ofKeyword (keyword : Keyword) : Rule :=
  ⟨.keyword keyword, .spelled keyword.spelling⟩

/-- The rule of an operator. -/
def ofOperator (operator : Operator) : Rule :=
  ⟨.operator operator, .spelled operator.spelling⟩

/-- The rule of a punctuation mark. -/
def ofPunctuation (mark : Punctuation) : Rule :=
  ⟨.punctuation mark, .spelled mark.spelling⟩

/-- The rules of the language; keywords come before identifiers. -/
def all : List Rule :=
  Keyword.all.map ofKeyword ++
    [⟨.identifier, .identifier⟩, ⟨.float, .float⟩, ⟨.number, .number⟩] ++
    Operator.all.map ofOperator ++
    Punctuation.all.map ofPunctuation

end Rule

/-- A match found so far, if any: its kind and its length. -/
abbrev Match := Option (TokenKind × Nat)

/-- The length of the match found so far. -/
def Match.length (found : Match) : Nat :=
  (found.map Prod.snd).getD 0

/-- Keep the match found so far unless the rule matches more. -/
def Match.extend (text : List Char) (found : Match) (rule : Rule) : Match :=
  if found.length < rule.pattern.matchLength text then
    some (rule.kind, rule.pattern.matchLength text)
  else
    found

/-- The longest match of a rule table at the start of a text. -/
def longestMatch (rules : List Rule) (text : List Char) : Match :=
  rules.foldl (Match.extend text) none

/-- The length of the line terminator at the start of a text. -/
def terminatorLength? : List Char → Option Nat
  | '\n' :: _ => some 1
  | '\r' :: '\n' :: _ => some 2
  | _ => none

/-- The text up to the next line feed, or all of it. -/
def beforeLineFeed (text : List Char) : List Char :=
  text.takeWhile (· != '\n')

/-- The text from the next line feed on, or nothing. -/
def fromLineFeed (text : List Char) : List Char :=
  text.dropWhile (· != '\n')

/--
The length of a comment that starts the text. It reaches to the terminator of
the line; a carriage return belongs to the terminator only right before a line
feed.
-/
def commentRun (text : List Char) : Nat :=
  match fromLineFeed text with
  | [] =>
      (beforeLineFeed text).length
  | _ :: _ =>
      if (beforeLineFeed text).getLast? = some '\r' then
        (beforeLineFeed text).length - 1
      else
        (beforeLineFeed text).length

/-- Whether the rest of a line, behind its blank run, holds no token. -/
def endsLine (text : List Char) : Bool :=
  text.isEmpty || text.head? == some '#' || (terminatorLength? text).isSome

/-- What stands at the start of a text. -/
inductive Scan where
  | token (kind : TokenKind) (length : Nat)
  | blank (length : Nat)
  | comment (length : Nat)
  | lineEnd (length : Nat)
  | finished
  | unmatched (c : Char)
  deriving Repr, DecidableEq

/-- Classify the start of a text that is not at the start of a line. -/
def scan : List Char → Scan
  | [] =>
      .finished
  | c :: rest =>
      if isBlank c then
        .blank (blankRun (c :: rest))
      else if c = '#' then
        .comment (commentRun (c :: rest))
      else
        match terminatorLength? (c :: rest) with
        | some length =>
            .lineEnd length
        | none =>
            match longestMatch Rule.all (c :: rest) with
            | some (kind, length) =>
                .token kind length
            | none =>
                .unmatched c

namespace Scan

/-- The number of characters that a scan reads. -/
def length : Scan → Nat
  | .token _ length | .blank length | .comment length | .lineEnd length =>
      length
  | .finished | .unmatched _ =>
      0

/-- Whether a scan reads part of the text. -/
def reads : Scan → Bool
  | .token _ _ | .blank _ | .comment _ | .lineEnd _ => true
  | .finished | .unmatched _ => false

end Scan

/-- A match that exists is not empty. -/
def Match.Nonempty (found : Match) : Prop :=
  ∀ kind length, found = some (kind, length) → 0 < length

/-- Taking another rule into account keeps matches nonempty. -/
theorem Match.Nonempty.extend
    {found : Match}
    (nonempty : found.Nonempty)
    (text : List Char)
    (rule : Rule) :
    (found.extend text rule).Nonempty := by
  intro kind length extended
  unfold Match.extend at extended
  split at extended
  · rename_i longer
    simp only [Option.some.injEq, Prod.mk.injEq] at extended
    omega
  · exact nonempty kind length extended

/-- The longest match over a rule table is not empty. -/
theorem longestMatch_nonempty
    (rules : List Rule)
    (text : List Char) :
    Match.Nonempty (longestMatch rules text) := by
  have folded :
      ∀ (remaining : List Rule) (found : Match),
        found.Nonempty →
        Match.Nonempty (remaining.foldl (Match.extend text) found) := by
    intro remaining
    induction remaining with
    | nil =>
        intro found nonempty
        exact nonempty
    | cons rule remaining inductionHypothesis =>
        intro found nonempty
        exact inductionHypothesis _ (nonempty.extend text rule)
  exact folded rules none (by intro kind length absent; cases absent)

/-- A comment has at least its opening mark. -/
theorem commentRun_pos (rest : List Char) : 0 < commentRun ('#' :: rest) := by
  have body :
      beforeLineFeed ('#' :: rest) = '#' :: beforeLineFeed rest := by
    simp [beforeLineFeed]
  unfold commentRun
  rw [body]
  cases beforeLineFeed rest with
  | nil =>
      split <;> simp
  | cons second others =>
      split
      · simp
      · split <;> simp

/-- A blank run that starts with a blank is not empty. -/
theorem blankRun_pos
    {c : Char}
    (blank : isBlank c = true)
    (rest : List Char) :
    0 < blankRun (c :: rest) := by
  simp [blankRun, blank]

/-- A line terminator has at least one character. -/
theorem terminatorLength?_pos
    {text : List Char}
    {length : Nat}
    (found : terminatorLength? text = some length) :
    0 < length := by
  unfold terminatorLength? at found
  split at found <;> simp_all <;> omega

/-- A scan that reads part of the text reads at least one character. -/
theorem length_scan_pos
    {text : List Char}
    (reads : (scan text).reads = true) :
    0 < (scan text).length := by
  cases text with
  | nil =>
      simp [scan, Scan.reads] at reads
  | cons c rest =>
      by_cases blank : isBlank c = true
      · simpa [scan, blank, Scan.length] using blankRun_pos blank rest
      · by_cases mark : c = '#'
        · subst mark
          simpa [scan, blank, Scan.length] using commentRun_pos rest
        · cases terminated : terminatorLength? (c :: rest) with
          | some length =>
              simpa [scan, blank, mark, terminated, Scan.length] using
                terminatorLength?_pos terminated
          | none =>
              cases matched : longestMatch Rule.all (c :: rest) with
              | none =>
                  simp [scan, blank, mark, terminated, matched,
                    Scan.reads] at reads
              | some found =>
                  simpa [scan, blank, mark, terminated, matched,
                    Scan.length] using
                    longestMatch_nonempty _ _ found.1 found.2 matched

/-- What lies behind a scan that reads part of the text is shorter. -/
theorem drop_scan_lt
    {text : List Char}
    {found : Scan}
    (scanned : scan text = found)
    (reads : found.reads = true) :
    (text.drop found.length).length < text.length := by
  subst scanned
  have positive := length_scan_pos reads
  have present : 0 < text.length := by
    cases text with
    | nil =>
        simp [scan, Scan.reads] at reads
    | cons c rest =>
        simp
  simp only [List.length_drop]
  omega

/-- Only the empty text leaves nothing to scan. -/
theorem scan_eq_finished
    {text : List Char} :
    scan text = .finished ↔ text = [] := by
  cases text with
  | nil =>
      simp [scan]
  | cons c rest =>
      simp only [scan, reduceCtorEq, iff_false]
      repeat' split
      all_goals exact Scan.noConfusion

end LayoutLexer
