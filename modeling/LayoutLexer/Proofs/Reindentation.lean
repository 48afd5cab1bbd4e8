import LayoutLexer.Proofs.Likeness
import Mathlib.Data.List.DropRight

namespace LayoutLexer

/-!
# Other leading runs

Widths are only compared with each other. If the leading runs of a source are
replaced by runs of other lengths, and the order of the lengths stays the same,
then the same blocks are opened and closed, by the same lines. It makes no
difference at all which blanks a run is made of.

The two sources have the same lines but for the runs (`Reindents.physicalLines`).
Behind its run, each line has the tokens it had, so the sources are alike.
-/

/-- The text of a line, with its terminator. -/
def Line.text (line : Line) : List Char :=
  line.content ++ line.terminator

/-- The text of a line, with another run of blanks in front if it is logical. -/
inductive Line.Reindents (widths : Nat → Nat) (line : Line) : List Char → Prop where
  | skipped :
      ¬ line.isLogical = true →
      line.Reindents widths line.text
  | logical {run : List Char} :
      line.isLogical = true →
      Blanks run →
      run.length = widths line.width →
      line.Reindents widths
        (run ++ (line.content.dropWhile isBlank ++ line.terminator))

/-- The same source, with other leading runs in its logical lines. -/
def Reindents (widths : Nat → Nat) (source other : String) : Prop :=
  ∃ texts,
    List.Forall₂ (Line.Reindents widths) (physicalLines source) texts ∧
      other.toList = texts.flatten

/--
The same token in a source with other leading runs. The text of an indent or
dedent is such a run, and all places are moved unless the widths are kept.
-/
structure Token.Reindented (widths : Nat → Nat) (token other : Token) : Prop where
  kind : other.kind = token.kind
  line : other.line = token.line
  text : token.kind ≠ .indent → token.kind ≠ .dedent → other.text = token.text
  span : widths = id → other.span = token.span

/-- The same error in a source with other leading runs. -/
inductive SessionError.Reindented
    (widths : Nat → Nat) :
    SessionError → SessionError → Prop where
  | lexical {c : Char} {line : Nat} {span other : Span} :
      (widths = id → other = span) →
      Reindented widths (.lexical c line span) (.lexical c line other)
  | indentation {line width : Nat} {span other : Span} {levels : List Nat} :
      (widths = id → other = span) →
      Reindented widths (.indentation line width span levels)
        (.indentation line (widths width) other (levels.map widths))
  | parser {line : Nat} {kind : TokenKind} {rejection : String}
      {span other : Span} :
      (widths = id → other = span) →
      Reindented widths (.parser line kind rejection span)
        (.parser line kind rejection other)

/-! ### Lines -/

/-- The same line of a source, with another leading run if it is logical. -/
structure Line.Reindented (widths : Nat → Nat) (line other : Line) : Prop where
  number : other.number = line.number
  terminator : other.terminator = line.terminator
  body : other.content.dropWhile isBlank = line.content.dropWhile isBlank
  width : line.isLogical = true → other.width = widths line.width
  skipped : ¬ line.isLogical = true → other.content = line.content
  offset : widths = id → other.offset = line.offset

/-- Other blanks in front of what stands behind a run are the run again. -/
theorem Blanks.append_dropWhile
    {run : List Char}
    (blanks : Blanks run)
    (text : List Char) :
    (run ++ text.dropWhile isBlank).takeWhile isBlank = run ∧
      (run ++ text.dropWhile isBlank).dropWhile isBlank =
        text.dropWhile isBlank := by
  have stays :
      (text.dropWhile isBlank).dropWhile isBlank = text.dropWhile isBlank :=
    List.dropWhile_idempotent _ _
  have noBlanks : (text.dropWhile isBlank).takeWhile isBlank = [] := by
    have split :
        (text.dropWhile isBlank).takeWhile isBlank ++
            (text.dropWhile isBlank).dropWhile isBlank =
          text.dropWhile isBlank :=
      List.takeWhile_append_dropWhile
    rwa [stays, List.append_left_eq_self] at split
  rw [List.takeWhile_append_of_pos blanks, List.dropWhile_append_of_pos blanks,
    noBlanks, stays, List.append_nil]
  exact ⟨rfl, rfl⟩

/-- No line feed is among the blanks in front of a text. -/
theorem count_lineFeed_dropWhile
    (text : List Char) :
    (text.dropWhile isBlank).count '\n' = text.count '\n' := by
  have noFeed : (text.takeWhile isBlank).count '\n' = 0 :=
    List.count_eq_zero.mpr fun member =>
      absurd (List.mem_takeWhile_imp member) (by decide)
  calc
    (text.dropWhile isBlank).count '\n' =
        (text.takeWhile isBlank ++ text.dropWhile isBlank).count '\n' := by
      rw [List.count_append, noFeed, Nat.zero_add]
    _ = text.count '\n' := by
      rw [List.takeWhile_append_dropWhile]

section

variable {widths : Nat → Nat}
variable {line other : Line}

theorem Line.Reindents.exists_content
    {text : List Char}
    {offset : Nat}
    (reindents : line.Reindents widths text)
    (sameOffset : widths = id → offset = line.offset) :
    ∃ content,
      text = content ++ line.terminator ∧
        line.Reindented widths ⟨line.number, offset, content, line.terminator⟩ := by
  cases reindents with
  | skipped notLogical =>
      exact ⟨line.content, rfl, rfl, rfl, rfl,
        fun logical => absurd logical notLogical, fun _ => rfl, sameOffset⟩
  | @logical run logical blanks length =>
      obtain ⟨isRun, isBody⟩ := blanks.append_dropWhile line.content
      refine ⟨_, (List.append_assoc _ _ _).symm, rfl, rfl, isBody, ?_,
        fun notLogical => absurd logical notLogical, sameOffset⟩
      intro _
      rw [Line.width, blankRun, isRun, length]

namespace Line.Reindented

theorem isLogical_eq
    (reindented : line.Reindented widths other) :
    other.isLogical = line.isLogical := by
  rw [isLogical, reindented.body, isLogical]

theorem getLast?_eq
    (reindented : line.Reindented widths other) :
    other.content.getLast? = line.content.getLast? := by
  by_cases logical : line.isLogical = true
  · have present : line.content.dropWhile isBlank ≠ [] := by
      intro isEmpty
      rw [isLogical, isEmpty] at logical
      cases logical
    rw [← other.leadingRun_append, ← line.leadingRun_append, reindented.body,
      List.getLast?_append_of_ne_nil _ present,
      List.getLast?_append_of_ne_nil _ present]
  · rw [reindented.skipped logical]

theorem count_lineFeed
    (reindented : line.Reindented widths other) :
    other.content.count '\n' = line.content.count '\n' := by
  rw [← count_lineFeed_dropWhile, reindented.body, count_lineFeed_dropWhile]

theorem width_eq
    (reindented : line.Reindented widths other)
    (same : widths = id) :
    other.width = line.width := by
  by_cases logical : line.isLogical = true
  · rw [reindented.width logical, same]
    rfl
  · exact congrArg blankRun (reindented.skipped logical)

theorem byteLength_content
    (reindented : line.Reindented widths other)
    (same : widths = id) :
    byteLength other.content = byteLength line.content := by
  rw [← other.leadingRun_append, ← line.leadingRun_append, byteLength_append,
    byteLength_append, reindented.body, byteLength_leadingRun,
    byteLength_leadingRun, reindented.width_eq same]

/-- The line is still found at the front of a text. -/
theorem firstLine
    {text more others : List Char}
    (reindented : line.Reindented widths other)
    (first : FirstLine text line.content line.terminator more)
    (last : line.terminator = [] → others = []) :
    FirstLine (other.content ++ (other.terminator ++ others)) other.content
      other.terminator others := by
  have noFeed : '\n' ∉ other.content := by
    rw [← List.count_eq_zero, reindented.count_lineFeed, List.count_eq_zero]
    exact first.endsBefore.noLineFeed
  have sameLast := reindented.getLast?_eq
  obtain ⟨number, offset, content, terminator⟩ := line
  rw [reindented.terminator]
  dsimp only at first last sameLast ⊢
  cases first with
  | lineFeed _ _ _ noReturn =>
      exact .lineFeed _ _ noFeed (sameLast ▸ noReturn)
  | returnFeed =>
      exact .returnFeed _ _ noFeed
  | unterminated _ _ present =>
      have otherPresent : other.content ≠ [] := by
        rwa [← List.getLast?_isSome, sameLast, List.getLast?_isSome]
      rw [last rfl, List.append_nil, List.append_nil]
      exact .unterminated _ noFeed otherPresent

end Line.Reindented

/-- The lines of a source with other leading runs. -/
theorem locateLines_reindented
    {text : List Char}
    {texts : List (List Char)}
    {number offset otherOffset : Nat}
    (reindents :
      List.Forall₂ (Line.Reindents widths)
        (locateLines number offset (cutLines text)) texts)
    (sameOffset : widths = id → otherOffset = offset) :
    List.Forall₂ (Line.Reindented widths)
      (locateLines number offset (cutLines text))
      (locateLines number otherOffset (cutLines texts.flatten)) := by
  induction text using firstLine_induction
    generalizing texts number offset otherOffset with
  | nil =>
      cases reindents
      exact .nil
  | @line text content terminator more first inductionHypothesis =>
      rw [Session.locateLines_eq first] at reindents ⊢
      cases reindents with
      | @cons _ piece _ pieces head tail =>
          obtain ⟨otherContent, rfl, reindented⟩ := head.exists_content sameOffset
          -- Nothing may follow a line without a terminator, or the two would be
          -- read as one.
          have last : terminator = [] → pieces.flatten = [] := by
            intro unterminated
            rw [(first.eq_of_unterminated unterminated).2] at tail
            cases tail
            rfl
          have otherFirst := reindented.firstLine first last
          rw [List.flatten_cons, List.append_assoc,
            Session.locateLines_eq otherFirst]
          refine .cons reindented (inductionHypothesis tail ?_)
          intro same
          have bytes := reindented.byteLength_content same
          simp only [Line.next, byteLength_append, sameOffset same] at bytes ⊢
          omega

/-- A text is made of its lines. -/
theorem flatMap_locateLines
    (text : List Char)
    (number offset : Nat) :
    (locateLines number offset (cutLines text)).flatMap Line.text = text := by
  induction text using firstLine_induction generalizing number offset with
  | nil =>
      rfl
  | line first inductionHypothesis =>
      rw [Session.locateLines_eq first, List.flatMap_cons, inductionHypothesis,
        Line.text, List.append_assoc, ← first.text_eq]

/-- Other leading runs add no line feed, and no byte if the widths are kept. -/
theorem flatMap_text_of_reindented
    {lines others : List Line}
    (reindented : List.Forall₂ (Line.Reindented widths) lines others) :
    (others.flatMap Line.text).count '\n' = (lines.flatMap Line.text).count '\n' ∧
      (widths = id →
        byteLength (others.flatMap Line.text) =
          byteLength (lines.flatMap Line.text)) := by
  induction reindented with
  | nil =>
      exact ⟨rfl, fun _ => rfl⟩
  | cons head _ inductionHypothesis =>
      obtain ⟨feeds, bytes⟩ := inductionHypothesis
      simp only [List.flatMap_cons, Line.text, List.count_append,
        byteLength_append, head.count_lineFeed, head.terminator, feeds, true_and]
      intro same
      rw [head.byteLength_content same, bytes same]

/-! ### Tokens and errors -/

/-- What may differ between sources with other leading runs. -/
def Likeness.reindentation
    (widths : Nat → Nat)
    (increasing : StrictMono widths)
    (topLevel : widths 0 = 0) :
    Likeness where
  tokens := Token.Reindented widths
  errors := SessionError.Reindented widths
  widths
  increasing
  topLevel

/-- The bytes of a leading run. -/
theorem Line.spanOf_width
    (line : Line) :
    line.start.spanOf line.width = ⟨line.offset, line.offset + line.width⟩ := by
  rw [Cursor.spanOf, start, line.take_width, line.byteLength_leadingRun]

/-- The tokens of a line are those of what stands behind its leading run. -/
theorem Line.lexed_eq_movedBy
    (line : Line) :
    line.lexed =
      (lexemes ⟨line.content.dropWhile isBlank, 0, line.number⟩).movedBy
        ⟨0, line.offset + line.width⟩ := by
  have behindRun :
      line.start.advance line.width =
        Cursor.movedBy ⟨line.content.dropWhile isBlank, 0, line.number⟩
          ⟨0, line.offset + line.width⟩ := by
    rw [Cursor.advance, start, line.take_width, line.byteLength_leadingRun, width,
      drop_blankRun, Cursor.movedBy, Nat.zero_add]
    rfl
  rw [lexed, lexemes_blankRun, ← lexemes_movedBy, ← behindRun]
  rfl

theorem Cursor.reindented_token
    {cursor moved : Cursor}
    (rest : moved.rest = cursor.rest)
    (line : moved.line = cursor.line)
    (offset : widths = id → moved.offset = cursor.offset)
    (kind : TokenKind)
    (length : Nat) :
    (cursor.token kind length).Reindented widths (moved.token kind length) where
  kind := rfl
  line := line
  text := fun _ _ => by rw [token, token, rest]
  span := fun same => by
    rw [token, token, spanOf, spanOf, rest, offset same]

namespace Line.Reindented

theorem behindRun_eq
    (reindented : line.Reindented widths other)
    (same : widths = id) :
    other.offset + other.width = line.offset + line.width := by
  rw [reindented.offset same, reindented.width_eq same]

theorem spanOf_width
    (reindented : line.Reindented widths other)
    (same : widths = id) :
    other.start.spanOf other.width = line.start.spanOf line.width := by
  rw [other.spanOf_width, line.spanOf_width, reindented.behindRun_eq same,
    reindented.offset same]

/-- A logical line with another leading run is alike. -/
theorem alike
    (reindented : line.Reindented widths other)
    (logical : line.isLogical = true)
    (increasing : StrictMono widths)
    (topLevel : widths 0 = 0) :
    line.Alike (.reindentation widths increasing topLevel) other where
  width := reindented.width logical
  layout := by
    intro kind isLayout
    exact {
      kind := rfl
      line := reindented.number
      text := fun notIndent notDedent =>
        absurd isLayout (not_or.mpr ⟨notIndent, notDedent⟩)
      span := reindented.spanOf_width
    }
  lexed := by
    rw [line.lexed_eq_movedBy, other.lexed_eq_movedBy, reindented.body,
      reindented.number, Lexed.movedBy, Lexed.movedBy,
      List.forall₂_map_left_iff, List.forall₂_map_right_iff, List.forall₂_same]
    intro token _
    refine ⟨rfl, rfl, fun _ _ => rfl, ?_⟩
    intro same
    rw [reindented.behindRun_eq same]
  error := by
    rw [line.lexed_eq_movedBy, other.lexed_eq_movedBy, reindented.body,
      reindented.number, Lexed.movedBy, Lexed.movedBy]
    cases failed :
        (lexemes ⟨line.content.dropWhile isBlank, 0, line.number⟩).error? with
    | none =>
        exact .none
    | some error =>
        obtain ⟨count, c, rest, _, rfl⟩ :=
          exists_character_of_lexemes_error failed
        refine .some (.lexical ?_)
        intro same
        rw [reindented.behindRun_eq same]
  newline := by
    have sameTerminator := reindented.terminator
    by_cases terminated : line.terminator = []
    · rw [Line.newline, Line.newline, reindented.terminator, terminated]
      exact .nil
    · rw [newline_of_terminated terminated,
        newline_of_terminated (sameTerminator ▸ terminated), sameTerminator]
      have sameOffset : widths = id → other.ending.offset = line.ending.offset := by
        intro same
        rw [Line.ending, Line.ending, reindented.offset same,
          reindented.byteLength_content same]
      exact .cons
        (Cursor.reindented_token sameTerminator reindented.number sameOffset _ _) .nil
  misfit := by
    intro mismatch
    have sameSpan := reindented.spanOf_width
    rw [Line.misfit, Line.misfit]
    generalize other.start.spanOf other.width = span at sameSpan ⊢
    rw [reindented.number, reindented.width logical]
    exact .indentation sameSpan

end Line.Reindented

end

section

variable {widths : Nat → Nat}
variable {source other : String}

theorem Reindents.physicalLines
    (reindents : Reindents widths source other) :
    List.Forall₂ (Line.Reindented widths) (physicalLines source)
      (LayoutLexer.physicalLines other) := by
  obtain ⟨texts, reindented, isOther⟩ := reindents
  rw [LayoutLexer.physicalLines, LayoutLexer.physicalLines, isOther]
  exact locateLines_reindented reindented fun _ => rfl

/-- The end of the source stays on its line. -/
theorem Reindents.sourceEnd
    (reindents : Reindents widths source other) :
    (LayoutLexer.sourceEnd other).line = (LayoutLexer.sourceEnd source).line ∧
      (widths = id →
        (LayoutLexer.sourceEnd other).offset =
          (LayoutLexer.sourceEnd source).offset) := by
  have ends := flatMap_text_of_reindented reindents.physicalLines
  rw [LayoutLexer.physicalLines, LayoutLexer.physicalLines, flatMap_locateLines,
    flatMap_locateLines] at ends
  exact ⟨congrArg (1 + ·) ends.1, ends.2⟩

/-- Sources with other leading runs in the same order are alike. -/
theorem Reindents.alike
    (reindents : Reindents widths source other)
    (increasing : StrictMono widths)
    (topLevel : widths 0 = 0) :
    Alike (.reindentation widths increasing topLevel) source other where
  lines := by
    have logicalLines :
        List.Forall₂ (Line.Reindented widths) (logicalLines source)
          (LayoutLexer.logicalLines other) :=
      List.rel_filter
        (fun _ _ reindented => Bool.coe_iff_coe.mpr reindented.isLogical_eq.symm)
        reindents.physicalLines
    have logical :
        ∀ line ∈ LayoutLexer.logicalLines source, line.isLogical = true :=
      fun line member => (isLogical_of_mem_logicalLines member).2
    apply ((List.forall₂_and_left _ _).mpr ⟨logical, logicalLines⟩).imp
    rintro line otherLine ⟨isLogical, reindented⟩
    exact reindented.alike isLogical increasing topLevel
  ending := by
    intro kind
    obtain ⟨sameLine, sameOffset⟩ := reindents.sourceEnd
    have sameRest :
        (LayoutLexer.sourceEnd other).rest = (LayoutLexer.sourceEnd source).rest :=
      rfl
    exact Cursor.reindented_token sameRest sameLine sameOffset kind 0

/-- An error stays as it is if the widths do. -/
theorem SessionError.Reindented.eq_of_id
    {error moved : SessionError}
    (reindented : error.Reindented widths moved)
    (same : widths = id) :
    moved = error := by
  cases reindented with
  | lexical span =>
      rw [span same]
  | indentation span =>
      rw [span same, same, List.map_id, id]
  | parser span =>
      rw [span same]

/--
A source can be indented in another way. If the order of widths stays the same,
and the top level stays at the top, then the same tokens are found on the same
lines, or the same error is, and the checker comes to the same result. If the
widths stay the same too, then nothing is moved, whichever blanks are used.
-/
theorem reindentation_keeps_structure
    (increasing : StrictMono widths)
    (topLevel : widths 0 = 0)
    (reindents : Reindents widths source other) :
    Results (SessionError.Reindented widths)
        (List.Forall₂ (Token.Reindented widths)) (lex source) (lex other) ∧
      Results (SessionError.Reindented widths) Eq (check source) (check other) ∧
      (widths = id →
        Results (fun error moved => moved = error)
            (List.Forall₂ fun token moved =>
              moved.kind = token.kind ∧
                moved.line = token.line ∧ moved.span = token.span)
            (lex source) (lex other) ∧
          check other = check source) := by
  have alike := reindents.alike increasing topLevel
  have checked :
      Results (SessionError.Reindented widths) Eq (check source) (check other) := by
    refine alike.check (fun related => related.kind) (fun related => related.line) ?_
    intro token moved related message
    rw [SessionError.refusal, SessionError.refusal, related.kind, related.line]
    exact .parser related.span
  refine ⟨alike.lex, checked, ?_⟩
  intro same
  have sameError :
      ∀ error moved, SessionError.Reindented widths error moved → moved = error :=
    fun _ _ reindented => reindented.eq_of_id same
  constructor
  · apply alike.lex.imp sameError
    intro tokens others related
    exact related.imp fun _ _ reindented =>
      ⟨reindented.kind, reindented.line, reindented.span same⟩
  · exact (checked.imp sameError fun _ _ => id).eq

end

/-- A run of one tab becomes three blanks; the line of one blank is passed over. -/
theorem reindentation_keeps_structure_tripled :
    StrictMono (3 * ·) ∧
      Reindents (3 * ·) "if x:\n\ty\n \nz" "if x:\n  \ty\n \nz" ∧
      (∃ tokens,
        lex "if x:\n  \ty\n \nz" = .ok tokens ∧
          List.Forall₂ (Token.Reindented (3 * ·)) (stream "if x:\n\ty\n \nz")
            tokens) ∧
      check "if x:\n  \ty\n \nz" = .ok ⟨3, 1⟩ := by
  have increasing : StrictMono (3 * ·) := by
    intro width wider narrower
    dsimp only
    omega
  have lines :
      physicalLines "if x:\n\ty\n \nz" =
        [⟨1, 0, "if x:".toList, ['\n']⟩, ⟨2, 6, "\ty".toList, ['\n']⟩,
          ⟨3, 9, " ".toList, ['\n']⟩, ⟨4, 11, "z".toList, []⟩] := by
    decide +kernel
  have blanks : Blanks "  \t".toList :=
    List.all_eq_true.mp (by decide)
  have reindents :
      Reindents (3 * ·) "if x:\n\ty\n \nz" "if x:\n  \ty\n \nz" := by
    rw [Reindents, lines]
    refine ⟨_, .cons (.logical (by decide) blanks_nil (by decide))
      (.cons (.logical (by decide) blanks (by decide))
        (.cons (.skipped (by decide))
          (.cons (.logical (by decide) blanks_nil (by decide)) .nil))), ?_⟩
    decide
  have lexed :
      lex "if x:\n\ty\n \nz" = .ok (stream "if x:\n\ty\n \nz") := by
    rw [lex, (collect_eq _).2]
    decide +kernel
  have checked : check "if x:\n\ty\n \nz" = .ok ⟨3, 1⟩ :=
    check_eq_ok_iff.mpr (by decide +kernel)
  obtain ⟨lexing, checking, _⟩ :=
    reindentation_keeps_structure increasing rfl reindents
  rw [lexed] at lexing
  rw [checked] at checking
  generalize lex "if x:\n  \ty\n \nz" = tokens at lexing ⊢
  generalize check "if x:\n  \ty\n \nz" = summary at checking ⊢
  cases lexing with
  | ok related =>
      cases checking with
      | ok same =>
          exact ⟨increasing, reindents, ⟨_, rfl, related⟩, by rw [← same]⟩

end LayoutLexer
