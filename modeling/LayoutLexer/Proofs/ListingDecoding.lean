import LayoutLexer.Proofs.ProcessContract
import LayoutLexer.Proofs.QuotedReading

namespace LayoutLexer

/-!
# Reading listings back

An entry of a listing is a number, a name and a quoted text, with a blank behind
each of the first two. Neither a number nor a name holds a blank, kinds have
different names, and a quoted text can be read back; so what an entry shows can
be read off it (`readEntry_display`). No entry holds a line break, so the lines
of a listing are its entries, and a listing can be read entry by entry
(`readListing_listing`).
-/

/-! ### Names of kinds -/

namespace TokenKind

/-- The list of kinds misses none. -/
theorem mem_all
    (kind : TokenKind) :
    kind ∈ all := by
  cases kind with
  | keyword word =>
      simp [all, Keyword.mem_all]
  | operator symbol =>
      simp [all, Operator.mem_all]
  | punctuation mark =>
      simp [all, Punctuation.mem_all]
  | _ =>
      simp [all]

/-- Kinds are told apart by their names. -/
theorem ofName?_name
    (kind : TokenKind) :
    ofName? kind.name = some kind := by
  have everyKind : ∀ kind ∈ all, ofName? kind.name = some kind := by
    decide +kernel
  exact everyKind kind kind.mem_all

/-- A name is made of upper-case letters. -/
theorem isUpper_of_mem_name
    (kind : TokenKind) :
    ∀ c ∈ kind.name.toList, c.isUpper = true := by
  have everyKind : ∀ kind ∈ all, kind.name.toList.all Char.isUpper = true := by
    decide +kernel
  exact List.all_eq_true.mp (everyKind kind kind.mem_all)

end TokenKind

/-! ### Entries -/

/-- What an entry of a listing shows of a token. -/
structure Listed where
  line : Nat
  kind : TokenKind
  text : String
  deriving Repr, DecidableEq

/-- What the entry of a token shows. -/
def Token.listed (token : Token) : Listed where
  line := token.line
  kind := token.kind
  text := token.text

namespace Listed

/-- The text in front of the first blank, and what stands behind it. -/
def untilBlank (text : List Char) : Option (List Char × List Char) :=
  match text.dropWhile (· != ' ') with
  | [] => none
  | _ :: rest => some (text.takeWhile (· != ' '), rest)

/-- Read an entry. -/
def readEntry (entry : List Char) : Option Listed := do
  let (number, behindNumber) ← untilBlank entry
  let (name, behindName) ← untilBlank behindNumber
  let line ← Text.decimal? number
  let kind ← TokenKind.ofName? (String.ofList name)
  match behindName with
  | '"' :: marked =>
      match Text.unquote Text.quotedEscape? (fun _ => true) marked with
      | some (text, []) => some ⟨line, kind, String.ofList text⟩
      | _ => none
  | _ => none

/-- Read a listing, one entry on a line. -/
def readListing (listing : String) : Option (List Listed) :=
  if listing = "" then
    some []
  else
    (listing.toList.splitOn '\n').mapM readEntry

theorem untilBlank_append
    {word : List Char}
    (solid : ∀ c ∈ word, c ≠ ' ')
    (rest : List Char) :
    untilBlank (word ++ ' ' :: rest) = some (word, rest) := by
  have inWord : ∀ c ∈ word, (c != ' ') = true := by
    simpa using solid
  rw [untilBlank, List.dropWhile_append_of_pos inWord,
    List.takeWhile_append_of_pos inWord]
  simp

end Listed

/-- An entry, character by character. -/
theorem Token.toList_display
    (token : Token) :
    token.display.toList =
      Nat.toDigits 10 token.line ++ ' ' :: (token.kind.name.toList ++ ' ' ::
        ('"' :: (token.text.toList.flatMap (Text.escaped Text.doubleQuote) ++
          ['"']))) := by
  simp [display, Text.quoted, Text.doubleQuote]

/-- An entry stays on its line. -/
theorem Token.ne_lineBreak_of_mem_display
    (token : Token) :
    ∀ c ∈ token.display.toList, c ≠ '\n' ∧ c ≠ '\r' := by
  intro c member
  simp only [token.toList_display, List.mem_append, List.mem_cons,
    List.mem_flatMap, List.not_mem_nil, or_false] at member
  rcases member with
    inNumber | isBlank | inName | isBlank | isMark | ⟨d, -, inText⟩ | isMark
  · constructor <;> rintro rfl <;>
      exact absurd (Text.isDigit_of_mem_toDigits _ inNumber) (by decide)
  · subst isBlank
    decide
  · constructor <;> rintro rfl <;>
      exact absurd (token.kind.isUpper_of_mem_name _ inName) (by decide)
  · subst isBlank
    decide
  · subst isMark
    decide
  · exact Text.ne_lineBreak_of_mem_escaped d c inText
  · subst isMark
    decide

namespace Listed

/-- What an entry shows can be read off it. -/
theorem readEntry_display
    (token : Token) :
    readEntry token.display.toList = some token.listed := by
  have number : ∀ c ∈ Nat.toDigits 10 token.line, c ≠ ' ' := by
    rintro c member rfl
    exact absurd (Text.isDigit_of_mem_toDigits ' ' member) (by decide)
  have name : ∀ c ∈ token.kind.name.toList, c ≠ ' ' := by
    rintro c member rfl
    exact absurd (token.kind.isUpper_of_mem_name ' ' member) (by decide)
  rw [token.toList_display, readEntry, untilBlank_append number]
  simp only [bind, Option.bind_some, untilBlank_append name,
    Text.decimal?_toDigits, String.ofList_toList, TokenKind.ofName?_name,
    Text.unquote_quoted token.text []]
  rfl

/-- The lines of a listing are its entries. -/
theorem lines_listing
    {tokens : List Token}
    (present : tokens ≠ []) :
    (Report.listing tokens).toList.splitOn '\n' =
      tokens.map fun token => token.display.toList := by
  rw [Report.listing, String.toList_intercalate, List.map_map]
  apply List.splitOn_intercalate
  · intro entry member lineBreak
    obtain ⟨token, -, rfl⟩ := List.mem_map.mp member
    exact (token.ne_lineBreak_of_mem_display '\n' lineBreak).1 rfl
  · simpa using present

/-- What a listing shows can be read off it. -/
theorem readListing_listing
    (tokens : List Token) :
    readListing (Report.listing tokens) = some (tokens.map Token.listed) := by
  by_cases present : tokens = []
  · subst present
    rfl
  · have lines := lines_listing present
    have shown : Report.listing tokens ≠ "" := by
      intro isEmpty
      rw [isEmpty] at lines
      have emptyLine : [] ∈ tokens.map fun token => token.display.toList := by
        rw [← lines]
        exact List.mem_singleton_self []
      obtain ⟨token, -, noText⟩ := List.mem_map.mp emptyLine
      simp [token.toList_display] at noText
    have entries :
        (readEntry ∘ fun token : Token => token.display.toList) =
          fun token => pure token.listed :=
      funext readEntry_display
    rw [readListing, if_neg shown, lines, List.mapM_map, entries, List.mapM_pure]
    rfl

end Listed

/--
A listing has one line for each token, and the lines, kinds and texts of the
tokens can be read off it: two listings are the same only if these are. The
report on a source shows them of the tokens of the source.
-/
theorem listing_determines_listed :
    (∀ (first : Token) (others : List Token),
      ((Report.listing (first :: others)).toList.splitOn '\n').length =
        (first :: others).length) ∧
    (∀ tokens : List Token,
      Listed.readListing (Report.listing tokens) =
        some (tokens.map Token.listed)) ∧
    (∀ tokens others : List Token,
      Report.listing tokens = Report.listing others →
        tokens.map Token.listed = others.map Token.listed) ∧
    ∀ name source report : String,
      (Report.make .listing name source).result = .ok report →
        ∃ tokens,
          lex source = .ok tokens ∧
            Listed.readListing report = some (tokens.map Token.listed) := by
  refine ⟨?_, Listed.readListing_listing, ?_, ?_⟩
  · intro first others
    rw [Listed.lines_listing (List.cons_ne_nil first others), List.length_map]
  · intro tokens others same
    have read := Listed.readListing_listing tokens
    rw [same, Listed.readListing_listing others] at read
    exact (Option.some.inj read).symm
  · intro name source report made
    obtain ⟨tokens, lexed, shown⟩ :=
      (Report.make_tokens_eq_ok_iff false).mp made
    subst shown
    exact ⟨tokens, lexed, Listed.readListing_listing tokens⟩

end LayoutLexer
