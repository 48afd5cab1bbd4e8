import LayoutLexer.Proofs.Coverage
import LayoutLexer.Proofs.Likeness

namespace LayoutLexer

/-!
# Lines that are passed over

A line of blanks, with or without a comment, has no tokens, and its width opens
or closes no block. So such a line can be put in front of any other line, or
behind the last one. What stands behind it is found one line further on, and
nothing else changes.
-/

/-- A line that holds nothing but blanks and a comment, with its terminator. -/
def SkippedLine (text : List Char) : Prop :=
  ∃ filler terminator,
    text = filler ++ terminator ∧ Filler filler ∧ Terminator terminator

/-- The same token, moved if it starts at a place or behind it. -/
def Token.movedFrom
    (token : Token)
    (place : Nat)
    (displacement : Displacement) :
    Token :=
  if place ≤ token.span.start then token.movedBy displacement else token

/-- The same error, moved if it starts at a place or behind it. -/
def SessionError.movedFrom
    (error : SessionError)
    (place : Nat)
    (displacement : Displacement) :
    SessionError :=
  if place ≤ error.span.start then error.movedBy displacement else error

/-! ### Filler -/

namespace Filler

theorem noLineFeed
    {text : List Char}
    (filler : Filler text) :
    '\n' ∉ text := by
  obtain ⟨blanks, comment, rfl, areBlanks, isComment⟩ := filler
  intro member
  rcases List.mem_append.mp member with inBlanks | inComment
  · exact absurd (areBlanks '\n' inBlanks) (by decide)
  · cases isComment with
    | absent =>
        cases inComment
    | present noFeed =>
        rcases List.mem_cons.mp inComment with isMark | inRest
        · exact absurd isMark (by decide)
        · exact noFeed inRest

/-- What stands first in filler is filler. -/
theorem of_append
    {first second : List Char}
    (filler : Filler (first ++ second)) :
    Filler first := by
  obtain ⟨blanks, comment, shape, areBlanks, isComment⟩ := filler
  rcases List.append_eq_append_iff.mp shape with
    ⟨others, isBlanks, _⟩ | ⟨begun, isFirst, isBegun⟩
  · have onlyBlanks : Blanks first :=
      fun c member => areBlanks c (isBlanks ▸ List.mem_append_left others member)
    exact ⟨first, [], (List.append_nil first).symm, onlyBlanks, .absent⟩
  · refine ⟨blanks, begun, isFirst, areBlanks, ?_⟩
    cases isComment with
    | absent =>
        rw [(List.append_eq_nil_iff.mp isBegun.symm).1]
        exact .absent
    | present noFeed =>
        cases begun with
        | nil =>
            exact .absent
        | cons mark rest =>
            obtain ⟨rfl, isRest⟩ := List.cons_eq_cons.mp isBegun
            exact .present fun member =>
              noFeed (isRest ▸ List.mem_append_left second member)

theorem not_isLogical
    {line : Line}
    (filler : Filler line.content) :
    ¬ line.isLogical = true := by
  obtain ⟨blanks, comment, shape, areBlanks, isComment⟩ := filler
  rw [Line.isLogical, shape, List.dropWhile_append_of_pos areBlanks]
  cases isComment with
  | absent =>
      exact Bool.false_ne_true
  | present noFeed =>
      exact Bool.false_ne_true

end Filler

/-! ### The skipped line -/

namespace SkippedLine

variable {text : List Char}

/-- A carriage return at the end of a comment counts to the terminator. -/
theorem exists_firstLine
    (isSkipped : SkippedLine text) :
    ∃ content terminator,
      FirstLine text content terminator [] ∧ terminator ≠ [] ∧ Filler content := by
  obtain ⟨filler, terminator, rfl, isFiller, isTerminator⟩ := isSkipped
  cases isTerminator with
  | lineFeed =>
      -- Before a bare line feed, a return that ends the comment is cut off from
      -- it. What is left is still filler.
      by_cases returns : filler.getLast? = some '\r'
      · obtain ⟨content, rfl⟩ := List.getLast?_eq_some_iff.mp returns
        have isContent : Filler content := isFiller.of_append
        rw [List.append_assoc]
        exact ⟨content, _, .returnFeed content [] isContent.noLineFeed,
          List.cons_ne_nil _ _, isContent⟩
      · exact ⟨filler, _, .lineFeed filler [] isFiller.noLineFeed returns,
          List.cons_ne_nil _ _, isFiller⟩
  | returnFeed =>
      exact ⟨filler, _, .returnFeed filler [] isFiller.noLineFeed,
        List.cons_ne_nil _ _, isFiller⟩

theorem logicalLines_eq
    {skipped : String}
    (isSkipped : SkippedLine skipped.toList) :
    logicalLines skipped = [] := by
  obtain ⟨content, terminator, first, _, filler⟩ := isSkipped.exists_firstLine
  exact (Session.remainingLines_eq first 0 1).trans (if_neg filler.not_isLogical)

theorem count_lineFeed
    (isSkipped : SkippedLine text) :
    text.count '\n' = 1 := by
  obtain ⟨content, terminator, first, terminated, filler⟩ :=
    isSkipped.exists_firstLine
  have noFeed : content.count '\n' = 0 :=
    List.count_eq_zero.mpr filler.noLineFeed
  rw [first.text_eq, List.count_append, List.count_append, noFeed,
    first.count_terminator terminated]
  rfl

theorem getLast?_eq
    (isSkipped : SkippedLine text) :
    text.getLast? = some '\n' := by
  obtain ⟨filler, terminator, rfl, _, isTerminator⟩ := isSkipped
  cases isTerminator <;> simp

/-- A skipped line moves what is behind it by one line. -/
theorem behind_eq
    {skipped : String}
    (isSkipped : SkippedLine skipped.toList) :
    Displacement.behind skipped = ⟨1, skipped.utf8ByteSize⟩ := by
  rw [Displacement.behind, isSkipped.count_lineFeed]

/-- A skipped line is none of the logical lines; those behind it are moved. -/
theorem logicalLines_insert
    {before skipped : String}
    (isSkipped : SkippedLine skipped.toList)
    (whole : WholeLines before.toList)
    (after : String) :
    logicalLines (before ++ skipped ++ after) =
      logicalLines before ++
        ((logicalLines after).map (·.movedBy (.behind before))).map
          (·.movedBy (.behind skipped)) := by
  have wholeBoth : WholeLines (before ++ skipped).toList := by
    right
    rw [String.toList_append, List.getLast?_append, isSkipped.getLast?_eq]
    rfl
  have moved :
      ∀ line : Line,
        line.movedBy (.behind (before ++ skipped)) =
          (line.movedBy (.behind before)).movedBy (.behind skipped) := by
    intro line
    simp [Line.movedBy, Displacement.behind, Nat.add_assoc]
  rw [logicalLines_append wholeBoth, logicalLines_append whole,
    isSkipped.logicalLines_eq, List.map_nil, List.append_nil, List.map_map]
  exact congrArg _ (List.map_congr_left fun line _ => moved line)

end SkippedLine

/-! ### Lines around it -/

/-- A line among whole lines has a terminator before the end. -/
theorem Line.StandsIn.ending_lt
    {source : String}
    {line : Line}
    (stands : line.StandsIn source)
    (whole : WholeLines source.toList) :
    line.ending.offset < source.utf8ByteSize := by
  obtain ⟨number, offset, content, terminator⟩ := line
  obtain ⟨before, text, more, shape, first, isOffset, _⟩ := stands
  dsimp only at first isOffset
  have present : text ≠ [] :=
    fun isEmpty => Nat.not_lt_zero _ (isEmpty ▸ first.length_lt)
  have wholeText : WholeLines text := by
    right
    rcases whole with isEmpty | ends
    · exact absurd (List.append_eq_nil_iff.mp (shape ▸ isEmpty)).2 present
    · rwa [shape, List.getLast?_append_of_ne_nil _ present] at ends
  obtain ⟨terminated, _⟩ := first.wholeLines wholeText
  have bytes : 0 < byteLength terminator :=
    byteLength_pos terminated
  rw [utf8ByteSize_eq_byteLength, shape, first.text_eq]
  simp only [Line.ending, isOffset, byteLength_append]
  omega

section

variable {place : Nat}
variable {displacement : Displacement}
variable {line : Line}

@[simp] theorem Token.kind_movedFrom
    (token : Token) :
    (token.movedFrom place displacement).kind = token.kind := by
  rw [movedFrom]
  split <;> rfl

/-- A line that ends before a place stays as it is. -/
theorem Line.alike_movedFrom_of_lt
    (ends : line.ending.offset < place) :
    line.Alike
      (.ofMaps (·.movedFrom place displacement) (·.movedFrom place displacement))
      line := by
  -- All that is found in the line starts before the place, so it is not moved.
  have start : line.start = line.start.movedBy ⟨0, 0⟩ :=
    rfl
  have early :
      ∀ {span : Span} {count length : Nat},
        span = (line.start.advance count).spanOf length → ¬ place ≤ span.start := by
    rintro span count length rfl
    have bytes := byteLength_take_add_drop line.content count
    simp only [Cursor.spanOf, Cursor.advance, Line.start, Line.ending] at ends ⊢
    omega
  refine Line.alike_of_movedBy start ?_ ?_ ?_
  · intro token count length _ span
    exact if_neg (early span)
  · intro error count length span
    have same : error.movedBy ⟨0, 0⟩ = error := by
      cases error <;> rfl
    rw [same]
    exact if_neg (early span)
  · refine (List.map_id _).symm.trans (List.map_congr_left ?_)
    intro token member
    have before : ¬ place ≤ token.span.start := by
      rw [(eq_of_mem_newline member).2]
      exact Nat.not_le.mpr ends
    exact (if_neg before).symm

/-- A line that starts at a place or behind it is moved. -/
theorem Line.alike_movedFrom_of_le
    (starts : place ≤ line.offset) :
    line.Alike
      (.ofMaps (·.movedFrom place displacement) (·.movedFrom place displacement))
      (line.movedBy displacement) := by
  have start : (line.movedBy displacement).start = line.start.movedBy displacement :=
    rfl
  have late :
      ∀ {span : Span} {count length : Nat},
        span = (line.start.advance count).spanOf length → place ≤ span.start := by
    rintro span count length rfl
    exact Nat.le_trans starts (Nat.le_add_right _ _)
  refine Line.alike_of_movedBy start ?_ ?_ ?_
  · intro token count length _ span
    exact if_pos (late span)
  · intro error count length span
    exact if_pos (late span)
  · rw [Line.newline_movedBy]
    apply List.map_congr_left
    intro token member
    have behind : place ≤ token.span.start := by
      rw [(eq_of_mem_newline member).2]
      exact Nat.le_trans starts (Nat.le_add_right _ _)
    exact (if_pos behind).symm

end

/-- A source with a skipped line is like the one without. -/
theorem SkippedLine.alike
    {before skipped : String}
    (isSkipped : SkippedLine skipped.toList)
    (whole : WholeLines before.toList)
    (after : String) :
    Alike
      (.ofMaps (·.movedFrom before.utf8ByteSize (.behind skipped))
        (·.movedFrom before.utf8ByteSize (.behind skipped)))
      (before ++ after) (before ++ skipped ++ after) where
  lines := by
    rw [isSkipped.logicalLines_insert whole, logicalLines_append whole]
    apply List.rel_append
    · rw [List.forall₂_same]
      intro line member
      exact Line.alike_movedFrom_of_lt
        ((standsIn_of_mem_logicalLines member).ending_lt whole)
    · rw [List.forall₂_map_right_iff, List.forall₂_same]
      intro line member
      obtain ⟨original, _, rfl⟩ := List.mem_map.mp member
      exact Line.alike_movedFrom_of_le (Nat.le_add_left _ _)
  ending := by
    intro kind
    have moved :
        sourceEnd (before ++ skipped ++ after) =
          (sourceEnd (before ++ after)).movedBy (.behind skipped) := by
      rw [String.append_assoc, sourceEnd_append, sourceEnd_append,
        sourceEnd_append]
      simp [Cursor.movedBy, Nat.add_right_comm]
    have behind : before.utf8ByteSize ≤ (sourceEnd (before ++ after)).offset := by
      rw [sourceEnd_append]
      exact Nat.le_add_left _ _
    rw [moved, Cursor.token_movedBy]
    exact (if_pos behind).symm

/--
A line of blanks and a comment can be put in front of any line or behind the last
one. The tokens that start behind it, or the error that does, are moved by its
bytes and one line; all else stays as it is, and so does what the checker says of
a source that it accepts.
-/
theorem skipped_line_invisible
    {before skipped : String}
    (whole : WholeLines before.toList)
    (isSkipped : SkippedLine skipped.toList)
    (after : String) :
    lex (before ++ skipped ++ after) =
        ((lex (before ++ after)).mapError
            (·.movedFrom before.utf8ByteSize ⟨1, skipped.utf8ByteSize⟩)).map
          (List.map
            (·.movedFrom before.utf8ByteSize ⟨1, skipped.utf8ByteSize⟩)) ∧
      ∀ summary,
        check (before ++ skipped ++ after) = .ok summary ↔
          check (before ++ after) = .ok summary := by
  have alike := isSkipped.alike whole after
  rw [isSkipped.behind_eq] at alike
  exact ⟨alike.lex_eq,
    alike.check_eq_ok_iff fun moved => moved ▸ Token.kind_movedFrom _⟩

/--
A comment that holds a carriage return, between a header and its block and deeper
than both: what is behind it moves, what is before it does not.
-/
theorem skipped_line_invisible_comment :
    WholeLines "if x:\n".toList ∧
      SkippedLine "    # é\r!\r\n".toList ∧
      (∃ tokens,
        lex ("if x:\n" ++ "    # é\r!\r\n" ++ "\ty\n") = .ok tokens ∧
          tokens.map (fun token => (token.text, token.line, token.span.start)) =
            [("if", 1, 0), ("x", 1, 3), (":", 1, 4), ("\n", 1, 5), ("\t", 3, 18),
              ("y", 3, 19), ("\n", 3, 20), ("", 4, 21), ("", 4, 21)]) ∧
      check ("if x:\n" ++ "    # é\r!\r\n" ++ "\ty\n") = .ok ⟨2, 1⟩ := by
  have whole : WholeLines "if x:\n".toList :=
    .inr (by decide)
  have blanks : Blanks "    ".toList :=
    List.all_eq_true.mp (by decide)
  have comment : OptionalComment ('#' :: " é\r!".toList) :=
    .present (by decide)
  have isSkipped : SkippedLine "    # é\r!\r\n".toList :=
    ⟨"    # é\r!".toList, _, by decide, ⟨_, _, by decide, blanks, comment⟩,
      .returnFeed⟩
  have lexed :
      lex ("if x:\n" ++ "\ty\n") = .ok (stream ("if x:\n" ++ "\ty\n")) := by
    rw [lex, (collect_eq _).2]
    decide +kernel
  have checked : check ("if x:\n" ++ "\ty\n") = .ok ⟨2, 1⟩ :=
    check_eq_ok_iff.mpr (by decide +kernel)
  obtain ⟨lexing, checking⟩ := skipped_line_invisible whole isSkipped "\ty\n"
  rw [lexed] at lexing
  exact ⟨whole, isSkipped, ⟨_, lexing, by decide +kernel⟩, (checking _).mpr checked⟩

end LayoutLexer
