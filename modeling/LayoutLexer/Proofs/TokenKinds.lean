import LayoutLexer.Proofs.Lookahead
import LayoutLexer.Proofs.Surroundings

namespace LayoutLexer

/-!
# The kind of a token

What a lexical token is depends on its text alone. Taken by itself, the text is a source
with this one token (`lex_of_spells`): whatever stood around it did not count. And its
kind is the one that the vocabulary gives the text: a reserved word, an operator or a
punctuation mark is found under its spelling, and other tokens are found nowhere. The
rules never look a text up, but they come to the same.
-/

/-- The tokens of a source that holds one token and nothing else. -/
def loneToken (kind : TokenKind) (text : String) : List Token :=
  [⟨kind, text, 1, ⟨0, text.utf8ByteSize⟩⟩,
    ⟨.eof, "", 1, ⟨text.utf8ByteSize, text.utf8ByteSize⟩⟩]

/-- The vocabulary resolves a text to a reserved word, an operator or a mark. -/
inductive Registered (text : String) : TokenKind → Prop where
  | keyword {word : Keyword} :
      Keyword.ofSpelling? text = some word →
      Registered text (.keyword word)
  | operator {symbol : Operator} :
      Operator.ofSpelling? text = some symbol →
      Registered text (.operator symbol)
  | punctuation {mark : Punctuation} :
      Punctuation.ofSpelling? text = some mark →
      Registered text (.punctuation mark)

section

variable {text : String}
variable {kind : TokenKind}

/-- A text that spells a kind is one token of this kind. -/
theorem lex_of_spells
    (spells : Spells kind text.toList) :
    lex text = .ok (loneToken kind text) := by
  let line : Line := ⟨1, 0, text.toList, []⟩
  have noFeed : '\n' ∉ text.toList := by
    intro member
    exact absurd (spells.solid '\n' member) (by decide)
  have found : longestMatch Rule.all line.start.rest = some (kind, text.toList.length) :=
    longestMatch_of_spells spells
  have lexed : line.lexed = ⟨[line.start.token kind text.toList.length], none⟩ := by
    have atEnd : (line.start.advance text.toList.length).rest = [] :=
      List.drop_length
    rw [Line.lexed, lexemes_of_found found, lexemes_eq, atEnd]
    rfl
  have logical : line.isLogical = true := by
    rw [← Bool.not_eq_false]
    intro skipped
    rw [Line.lexed_of_not_isLogical skipped] at lexed
    cases lexed
  have width : line.width = 0 := by
    obtain ⟨c, rest, shape⟩ := List.exists_cons_of_ne_nil spells.ne_nil
    have solid := spells.solid c (shape ▸ List.mem_cons_self)
    have noBlank : isBlank c = false := by
      simp only [separates, Bool.or_eq_false_iff] at solid
      exact solid.1.1.1
    simp [line, Line.width, blankRun, shape, noBlank]
  have lines : logicalLines text = [line] := by
    rw [logicalLines_eq_remainingLines, remainingLines_of_noLineFeed noFeed]
    exact if_pos logical
  have token :
      line.start.token kind text.toList.length =
        ⟨kind, text, 1, ⟨0, text.utf8ByteSize⟩⟩ := by
    simp [line, Line.start, Cursor.token, Cursor.spanOf, utf8ByteSize_eq_byteLength]
  have eof :
      (sourceEnd text).token .eof 0 =
        ⟨.eof, "", 1, ⟨text.utf8ByteSize, text.utf8ByteSize⟩⟩ := by
    simp [sourceEnd, Cursor.token, Cursor.spanOf, utf8ByteSize_eq_byteLength,
      List.count_eq_zero.mpr noFeed]
  have unchanged : Indentation.topLevel.resolve 0 = .ok (.unchanged, .topLevel) :=
    rfl
  have noNewline : pushedBy line.newline = [] :=
    rfl
  have closing : closingTokens text .topLevel = [(sourceEnd text).token .eof 0] :=
    rfl
  rw [lex_eq_lexFrom, lines, lexFrom, width, unchanged, lexed, loneToken, ← token, ← eof,
    ← closing]
  dsimp only
  rw [Line.tokens, lexed, noNewline]
  rfl

/-! ### The vocabulary -/

/-- A text that is registered spells its kind. -/
theorem Registered.spells
    (registered : Registered text kind) :
    Spells kind text.toList := by
  cases registered with
  | keyword found =>
      rw [← Keyword.ofSpelling?_eq_some_iff.mp found]
      exact .keyword _
  | operator found =>
      rw [← Operator.ofSpelling?_eq_some_iff.mp found]
      exact .operator _
  | punctuation found =>
      rw [← Punctuation.ofSpelling?_eq_some_iff.mp found]
      exact .punctuation _

theorem Registered.kind_eq
    {other : TokenKind}
    (registered : Registered text kind)
    (registeredOther : Registered text other) :
    kind = other :=
  registered.spells.kind_eq registeredOther.spells

/-- A reserved kind is that of its one spelling, and of no other text. -/
theorem Spells.kind_eq_iff
    {reserved : TokenKind}
    {spelling : String}
    (spells : Spells kind text.toList)
    (spelled : Spells reserved spelling.toList)
    (only : ∀ {other}, Spells reserved other → other = spelling.toList) :
    kind = reserved ↔ spelling = text := by
  constructor
  · rintro rfl
    exact String.toList_inj.mp (only spells).symm
  · rintro rfl
    exact spells.kind_eq spelled

/-- A text is not found under two different kinds. -/
theorem eq_none_or_eq_none
    {first : Option α}
    {second : Option β}
    {kindOf : α → TokenKind}
    {otherKindOf : β → TokenKind}
    (registered : ∀ {entry}, first = some entry → Registered text (kindOf entry))
    (registeredOther :
      ∀ {entry}, second = some entry → Registered text (otherKindOf entry))
    (different : ∀ entry other, kindOf entry ≠ otherKindOf other) :
    first = none ∨ second = none := by
  cases found : first with
  | none =>
      exact .inl rfl
  | some entry =>
      cases foundOther : second with
      | none =>
          exact .inr rfl
      | some other =>
          have same := (registered found).kind_eq (registeredOther foundOther)
          exact absurd same (different entry other)

end

/-- The text of a lexical token spells its kind. -/
theorem spells_of_mem_lex
    {source : String}
    {tokens : List Token}
    {token : Token}
    (lexed : lex source = .ok tokens)
    (member : token ∈ tokens)
    (isLexical : token.kind.isLayout = false) :
    Spells token.kind token.text.toList := by
  obtain ⟨_, _, streamed, _⟩ := exists_eof_of_lex lexed
  obtain ⟨line, _, inLine⟩ := exists_line_of_lexical (streamed ▸ member) isLexical
  obtain ⟨count, kind, length, rfl, found⟩ := exists_match_of_mem_lexemes inLine
  rw [Cursor.token, String.toList_ofList]
  exact spells_of_longestMatch found

/--
The kind of a lexical token is settled by its text and agrees with the vocabulary. The
text alone is lexed to this one token. It is a reserved word, an operator or a
punctuation mark just if it is found as one, and whatever is found as one is lexed to
this one token. No text is found as two of them.
-/
theorem kind_settled_by_text :
    (∀ source tokens,
      lex source = .ok tokens →
        ∀ token ∈ tokens,
          token.kind.isLayout = false →
            lex token.text = .ok (loneToken token.kind token.text) ∧
              (∀ word,
                token.kind = .keyword word ↔
                  Keyword.ofSpelling? token.text = some word) ∧
              (∀ symbol,
                token.kind = .operator symbol ↔
                  Operator.ofSpelling? token.text = some symbol) ∧
              ∀ mark,
                token.kind = .punctuation mark ↔
                  Punctuation.ofSpelling? token.text = some mark) ∧
    (∀ text kind, Registered text kind → lex text = .ok (loneToken kind text)) ∧
    ∀ text,
      (Keyword.ofSpelling? text = none ∨ Operator.ofSpelling? text = none) ∧
        (Keyword.ofSpelling? text = none ∨ Punctuation.ofSpelling? text = none) ∧
        (Operator.ofSpelling? text = none ∨ Punctuation.ofSpelling? text = none) := by
  refine ⟨?_, ?_, ?_⟩
  · intro source tokens lexed token member isLexical
    have spells := spells_of_mem_lex lexed member isLexical
    refine ⟨lex_of_spells spells, ?_, ?_, ?_⟩
    · intro word
      rw [Keyword.ofSpelling?_eq_some_iff]
      refine spells.kind_eq_iff (.keyword word) ?_
      rintro _ ⟨⟩
      rfl
    · intro symbol
      rw [Operator.ofSpelling?_eq_some_iff]
      refine spells.kind_eq_iff (.operator symbol) ?_
      rintro _ ⟨⟩
      rfl
    · intro mark
      rw [Punctuation.ofSpelling?_eq_some_iff]
      refine spells.kind_eq_iff (.punctuation mark) ?_
      rintro _ ⟨⟩
      rfl
  · intro text kind registered
    exact lex_of_spells registered.spells
  · intro text
    refine ⟨?_, ?_, ?_⟩
    · exact eq_none_or_eq_none .keyword .operator fun _ _ => TokenKind.noConfusion
    · exact eq_none_or_eq_none .keyword .punctuation fun _ _ => TokenKind.noConfusion
    · exact eq_none_or_eq_none .operator .punctuation fun _ _ => TokenKind.noConfusion

/--
A word that goes on behind a reserved one, and an assignment next to a comparison: each
is the same token without its neighbours.
-/
theorem kind_settled_by_text_neighbours :
    ∃ tokens,
      lex "ifx=if==x" = .ok tokens ∧
        tokens.map Token.text = ["ifx", "=", "if", "==", "x", ""] ∧
        lex "ifx" = .ok (loneToken .identifier "ifx") ∧
        lex "=" = .ok (loneToken (.operator .assign) "=") ∧
        Keyword.ofSpelling? "ifx" ≠ some .ifKw := by
  have lexed : lex "ifx=if==x" = .ok (stream "ifx=if==x") := by
    rw [lex, (collect_eq _).2]
    decide +kernel
  have word : ⟨.identifier, "ifx", 1, ⟨0, 3⟩⟩ ∈ stream "ifx=if==x" := by
    decide +kernel
  have symbol : ⟨.operator .assign, "=", 1, ⟨3, 4⟩⟩ ∈ stream "ifx=if==x" := by
    decide +kernel
  obtain ⟨settled, _⟩ := kind_settled_by_text
  obtain ⟨alone, keywords, _⟩ := settled _ _ lexed _ word rfl
  obtain ⟨symbolAlone, _⟩ := settled _ _ lexed _ symbol rfl
  refine ⟨_, lexed, by decide +kernel, alone, symbolAlone, ?_⟩
  intro found
  exact TokenKind.noConfusion ((keywords .ifKw).mpr found)

end LayoutLexer
