import LayoutLexer.Proofs.LineEnds

namespace LayoutLexer

/-!
# Sessions follow the lines of their source

A session keeps a place in the source and moves it by what the scanner finds;
it skips blank lines by looking for a line feed and meets terminators like any
other piece of text. The theorems here show that all the same it goes through
its source line by line: a statement follows the tokens of a content, a call of
`Session.line` follows the course of one line, and a whole session follows
`courseOf` its source, whatever the parser answers.
-/

/-- The place behind a line. -/
def Line.next (line : Line) (more : List Char) : Cursor where
  rest := more
  offset := line.offset + byteLength (line.content ++ line.terminator)
  line := line.number + line.terminator.count '\n'

namespace Session

section

variable (parser : Parser σ ω) (progress : Progress σ)

/-! ### The steps of a statement -/

theorem statement_token
    {cursor : Cursor}
    {kind : TokenKind}
    {length : Nat}
    (scanned : scan cursor.rest = .token kind length) :
    statement parser cursor progress =
      (deliver parser progress (cursor.token kind length)).bind
        (statement parser (cursor.advance length)) := by
  rw [statement]
  split <;> rename_i found <;> rw [scanned] at found <;> cases found
  cases deliver parser progress (cursor.token kind length) <;> rfl

theorem statement_blank
    {cursor : Cursor}
    {length : Nat}
    (scanned : scan cursor.rest = .blank length) :
    statement parser cursor progress =
      statement parser (cursor.advance length) progress := by
  rw [statement]
  split <;> rename_i found <;> rw [scanned] at found <;> cases found
  rfl

theorem statement_comment
    {cursor : Cursor}
    {length : Nat}
    (scanned : scan cursor.rest = .comment length) :
    statement parser cursor progress =
      statement parser (cursor.advance length) progress := by
  rw [statement]
  split <;> rename_i found <;> rw [scanned] at found <;> cases found
  rfl

theorem statement_lineEnd
    {cursor : Cursor}
    {length : Nat}
    (scanned : scan cursor.rest = .lineEnd length) :
    statement parser cursor progress =
      (deliver parser progress (cursor.token .newline length)).map
        ((cursor.advance length).nextLine, ·) := by
  rw [statement]
  split <;> rename_i found <;> rw [scanned] at found <;> cases found
  cases deliver parser progress (cursor.token .newline length) <;> rfl

theorem statement_finished
    {cursor : Cursor}
    (scanned : scan cursor.rest = .finished) :
    statement parser cursor progress = .ok (cursor, progress) := by
  rw [statement]
  split <;> rename_i found <;> rw [scanned] at found <;> cases found

theorem statement_unmatched
    {cursor : Cursor}
    {c : Char}
    (scanned : scan cursor.rest = .unmatched c) :
    statement parser cursor progress =
      .error ⟨.lexical c cursor.line (cursor.spanOf 1), progress⟩ := by
  rw [statement]
  split <;> rename_i found <;> rw [scanned] at found <;> cases found
  rfl

/-- A statement may start behind its blanks. -/
theorem statement_blankRun
    (cursor : Cursor) :
    statement parser cursor progress =
      statement parser (cursor.advance (blankRun cursor.rest)) progress := by
  cases ahead : cursor.rest with
  | nil =>
      simp [blankRun]
  | cons c rest =>
      by_cases blank : isBlank c = true
      · apply statement_blank
        rw [ahead, scan, if_pos blank]
      · simp [blankRun, blank]

/-- A statement may start behind its first blank. -/
theorem statement_advance_one
    {cursor : Cursor}
    {c : Char}
    {rest : List Char}
    (ahead : cursor.rest = c :: rest)
    (blank : isBlank c = true) :
    statement parser cursor progress =
      statement parser (cursor.advance 1) progress := by
  have run : blankRun cursor.rest = 1 + blankRun (cursor.advance 1).rest := by
    simp [ahead, blankRun, blank, Cursor.advance, Nat.add_comm]
  rw [statement_blankRun parser progress cursor,
    statement_blankRun parser progress (cursor.advance 1),
    Cursor.advance_advance, run]

/-! ### Statements -/

/--
In front of a tail, a statement pushes the tokens of the content; unless one of
its characters starts no token, it goes on behind the content.
-/
theorem statement_content
    {cursor : Cursor}
    {tail : List Char}
    (ends : EndsBefore cursor.rest tail) :
    statement parser (cursor.followedBy tail) progress =
      (play parser ((lexemes cursor).tokens.map .push) progress).bind
        fun reached =>
          match (lexemes cursor).error? with
          | some error =>
              .error ⟨error, reached⟩
          | none =>
              statement parser
                ((cursor.advance cursor.rest.length).followedBy tail)
                reached := by
  fun_induction lexemes cursor generalizing progress with
  | case1 cursor ahead =>
      simp [ahead, Except.bind]
  | case2 cursor c rest ahead blank inductionHypothesis =>
      -- The scanner skips the whole run, the content is read blank by blank.
      have within : 1 ≤ cursor.rest.length := by
        simp [ahead]
      have front : (cursor.followedBy tail).rest = c :: (rest ++ tail) := by
        simp [ahead]
      rw [statement_advance_one parser progress front blank,
        Cursor.advance_followedBy within,
        inductionHypothesis progress (ends.drop 1),
        Cursor.advance_length_advance within]
  | case3 cursor rest ahead noBlank =>
      have scanned := ends.scan_followedBy ahead
      simp only [noBlank, ↓reduceIte] at scanned
      rw [statement_comment parser progress scanned,
        Cursor.advance_followedBy (Nat.le_refl _)]
      rfl
  | case4 cursor c rest ahead noBlank noMark kind length found
      inductionHypothesis =>
      rw [← longestMatch_eq_firstLongest] at found
      have within := length_le_of_longestMatch found
      have scanned := ends.scan_followedBy ahead
      simp only [noBlank, noMark, found, ↓reduceIte] at scanned
      rw [statement_token parser progress scanned,
        Cursor.token_followedBy within, Cursor.advance_followedBy within,
        Lexed.cons, List.map_cons, play_push]
      cases deliver parser progress (cursor.token kind length) with
      | error halt =>
          rfl
      | ok delivered =>
          have later := inductionHypothesis delivered (ends.drop length)
          rw [Cursor.advance_length_advance within] at later
          exact later
  | case5 cursor c rest ahead noBlank noMark found =>
      rw [← longestMatch_eq_firstLongest] at found
      have within : 1 ≤ cursor.rest.length := by
        simp [ahead]
      have scanned := ends.scan_followedBy ahead
      simp only [noBlank, noMark, found, ↓reduceIte] at scanned
      rw [statement_unmatched parser progress scanned,
        Cursor.spanOf_followedBy within]
      rfl

/-- Behind the content of a line, a statement pushes the terminator. -/
theorem statement_ending
    {line : Line}
    {text more : List Char}
    (first : FirstLine text line.content line.terminator more) :
    statement parser (line.ending.followedBy more) progress =
      (play parser line.newline progress).map (line.next more, ·) := by
  obtain ⟨number, offset, content, terminator⟩ := line
  dsimp only at first
  cases first with
  | lineFeed =>
      have scanned : scan ('\n' :: more) = .lineEnd 1 := rfl
      rw [statement_lineEnd parser progress scanned]
      simp [Line.newline, play_singleton_push, Line.ending, Cursor.followedBy,
        Cursor.token, Cursor.spanOf, Cursor.advance, Cursor.nextLine, Line.next,
        Nat.add_assoc]
  | returnFeed =>
      have scanned : scan ('\r' :: '\n' :: more) = .lineEnd 2 := rfl
      rw [statement_lineEnd parser progress scanned]
      simp [Line.newline, play_singleton_push, Line.ending, Cursor.followedBy,
        Cursor.token, Cursor.spanOf, Cursor.advance, Cursor.nextLine, Line.next,
        Nat.add_assoc]
  | unterminated =>
      rw [statement_finished parser progress rfl]
      simp [Line.newline, Line.ending, Cursor.followedBy, Line.next, Except.map]

/-- The width of a line pushes its indents or dedents. -/
theorem resolveWidth_eq
    (line : Line)
    (tail : List Char)
    (indentation : Indentation) :
    resolveWidth parser (line.start.followedBy tail) line.width indentation
        progress =
      match indentation.resolve line.width with
      | .error mismatch =>
          .error ⟨line.misfit mismatch, progress⟩
      | .ok (change, resolved) =>
          (play parser (line.layout change) progress).map (resolved, ·) := by
  have within : line.width ≤ line.start.rest.length := line.width_le_length
  have place : (line.start.followedBy tail).line = line.number := rfl
  rw [resolveWidth]
  cases indentation.resolve line.width with
  | error mismatch =>
      rw [Cursor.spanOf_followedBy within]
      rfl
  | ok resolution =>
      obtain ⟨change, resolved⟩ := resolution
      cases change with
      | unchanged =>
          rfl
      | indent =>
          simp only [Line.layout, play_note, play_singleton_push,
            Cursor.token_followedBy within, place]
          cases deliver parser (progress.record (.indent line.number line.width))
            (line.start.token .indent line.width) <;> rfl
      | dedent closed =>
          simp only [Line.layout, play_note, play_replicate_push,
            Cursor.token_followedBy within, place]
          cases deliverCopies parser (line.start.token .dedent line.width) closed
            (progress.record (.dedent line.number line.width closed)) <;> rfl

/-! ### Lines -/

/-- Skipping a line leads behind its terminator. -/
theorem skipLine_eq
    {line : Line}
    {text more : List Char}
    (first : FirstLine text line.content line.terminator more) :
    (line.start.followedBy (line.terminator ++ more)).skipLine =
      line.next more := by
  have ends := first.endsBefore
  obtain ⟨number, offset, content, terminator⟩ := line
  dsimp only [Line.start, Cursor.followedBy] at ends first ⊢
  have passed := Cursor.advance_append (content ++ terminator) more offset number
  rw [List.append_assoc] at passed
  rw [Cursor.skipLine, ends.fromLineFeed_append, ends.beforeLineFeed_append]
  cases first with
  | lineFeed =>
      have length :
          (content ++ beforeLineFeed (['\n'] ++ more)).length + 1 =
            (content ++ ['\n']).length := by
        simp [beforeLineFeed]
      have ahead : fromLineFeed (['\n'] ++ more) = '\n' :: more := rfl
      simp only [ahead, length, passed]
      rfl
  | returnFeed =>
      have length :
          (content ++ beforeLineFeed (['\r', '\n'] ++ more)).length + 1 =
            (content ++ ['\r', '\n']).length := by
        simp [beforeLineFeed]
      have ahead : fromLineFeed (['\r', '\n'] ++ more) = '\n' :: more := rfl
      simp only [ahead, length, passed]
      rfl
  | unterminated =>
      have ahead : fromLineFeed ([] ++ []) = [] := rfl
      have before : beforeLineFeed ([] ++ []) = [] := rfl
      simp only [ahead, before, passed]
      rfl

/-- A statement that starts with its line follows the course of the line. -/
theorem statement_eq
    {line : Line}
    {text more : List Char}
    (first : FirstLine text line.content line.terminator more)
    (resolved : Indentation) :
    (statement parser (line.start.followedBy (line.terminator ++ more))
        progress).map (fun reached => (reached.1, resolved, reached.2)) =
      (follow parser (line.statement resolved) progress).map
        (line.next more, ·) := by
  have ends : EndsBefore line.start.rest (line.terminator ++ more) :=
    first.endsBefore
  have behind :
      (line.start.advance line.start.rest.length).followedBy
          (line.terminator ++ more) =
        line.ending.followedBy more := by
    simp [Line.start, Line.ending, Cursor.advance, Cursor.followedBy]
  rw [statement_content parser progress ends, behind, ← Line.lexed,
    Line.statement]
  cases line.lexed.error? with
  | some error =>
      rw [follow]
      cases play parser (line.lexed.tokens.map .push) progress <;> rfl
  | none =>
      rw [follow, play_append]
      cases play parser (line.lexed.tokens.map .push) progress with
      | error halt =>
          rfl
      | ok reached =>
          simp only [Except.bind, statement_ending parser reached first]
          cases play parser line.newline reached <;> rfl

/-- Reading a line follows its course, or skips it. -/
theorem line_eq
    {line : Line}
    {text more : List Char}
    (first : FirstLine text line.content line.terminator more)
    (indentation : Indentation) :
    Session.line parser (line.start.followedBy (line.terminator ++ more))
        indentation progress =
      if line.isLogical then
        (follow parser (line.course indentation) progress).map
          (line.next more, ·)
      else
        .ok (line.next more, indentation, progress) := by
  have ends : EndsBefore line.start.rest (line.terminator ++ more) :=
    first.endsBefore
  have width :
      blankRun (line.start.followedBy (line.terminator ++ more)).rest =
        line.width :=
    ends.blankRun_append
  have skips :
      endsLine ((line.start.followedBy (line.terminator ++ more)).rest.drop
        line.width) = !line.isLogical :=
    Line.endsLine_eq_not_isLogical ends
  -- The blanks in front of the first token are read twice: once to measure
  -- them, once as part of the content.
  have rewound :
      ∀ reached,
        statement parser
            ((line.start.followedBy (line.terminator ++ more)).advance
              line.width) reached =
          statement parser (line.start.followedBy (line.terminator ++ more))
            reached := by
    intro reached
    rw [statement_blankRun parser reached
      (line.start.followedBy (line.terminator ++ more)), width]
  unfold Session.line
  dsimp only
  rw [width, skips]
  by_cases logical : line.isLogical = true
  · simp only [logical, Bool.not_true, Bool.false_eq_true, ↓reduceIte,
      resolveWidth_eq, rewound]
    rw [Line.course]
    cases indentation.resolve line.width with
    | error mismatch =>
        rfl
    | ok resolution =>
        obtain ⟨change, resolved⟩ := resolution
        simp only [follow_after]
        cases play parser (line.layout change) progress with
        | error halt =>
            rfl
        | ok laidOut =>
            refine Eq.trans ?_ (statement_eq parser laidOut first resolved)
            dsimp only [Except.map]
            cases statement parser
              (line.start.followedBy (line.terminator ++ more)) laidOut <;> rfl
  · simp only [logical, Bool.not_false, ↓reduceIte, Bool.false_eq_true,
      skipLine_eq first]

/-! ### Whole sources -/

/-- The lines that are left of a source, by its unread text. -/
def remainingLines (text : List Char) (offset number : Nat) : List Line :=
  (locateLines number offset (cutLines text)).filter Line.isLogical

/-- The first line of a text is followed by those of what is left. -/
theorem locateLines_eq
    {text content terminator more : List Char}
    (first : FirstLine text content terminator more)
    (offset number : Nat) :
    let line : Line := ⟨number, offset, content, terminator⟩
    locateLines number offset (cutLines text) =
      line ::
        locateLines (line.next more).line (line.next more).offset
          (cutLines more) := by
  intro line
  have later :
      locateLines (number + 1) (offset + byteLength (content ++ terminator))
          (cutLines more) =
        locateLines (line.next more).line (line.next more).offset
          (cutLines more) := by
    -- Without a terminator there is no line left to be numbered.
    cases first with
    | lineFeed =>
        rfl
    | returnFeed =>
        rfl
    | unterminated =>
        rfl
  rw [first.cutLines_eq, locateLines, first.ofText_eq, later]

theorem remainingLines_eq
    {text content terminator more : List Char}
    (first : FirstLine text content terminator more)
    (offset number : Nat) :
    let line : Line := ⟨number, offset, content, terminator⟩
    remainingLines text offset number =
      if line.isLogical then
        line :: remainingLines more (line.next more).offset (line.next more).line
      else
        remainingLines more (line.next more).offset (line.next more).line := by
  intro line
  rw [remainingLines, locateLines_eq first, List.filter_cons]
  rfl

theorem lines_of_unread
    {cursor : Cursor}
    (unread : cursor.rest ≠ [])
    (indentation : Indentation) :
    Session.lines parser cursor indentation progress =
      (Session.line parser cursor indentation progress).bind fun reached =>
        Session.lines parser reached.1 reached.2.1 reached.2.2 := by
  rw [Session.lines, dif_neg unread]
  split <;> rename_i completed <;> rw [completed] <;> rfl

/-- Reading all lines follows the courses of the logical ones. -/
theorem lines_eq
    (text : List Char)
    (offset number : Nat)
    (indentation : Indentation) :
    Session.lines parser ⟨text, offset, number⟩ indentation progress =
      (follow parser (layOut (remainingLines text offset number) indentation)
        progress).map
          (⟨[], offset + byteLength text, number + text.count '\n'⟩, ·) := by
  induction text using firstLine_induction
    generalizing offset number indentation progress with
  | nil =>
      rw [Session.lines]
      rfl
  | @line text content terminator more first inductionHypothesis =>
      let line : Line := ⟨number, offset, content, terminator⟩
      have unread : text ≠ [] := by
        intro empty
        have shorter := first.length_lt
        simp [empty] at shorter
      have start :
          (⟨text, offset, number⟩ : Cursor) =
            line.start.followedBy (line.terminator ++ more) := by
        rw [first.text_eq]
        rfl
      have finish :
          (⟨[], offset + byteLength text, number + text.count '\n'⟩ : Cursor) =
            ⟨[], (line.next more).offset + byteLength more,
              (line.next more).line + more.count '\n'⟩ := by
        have noFeed : content.count '\n' = 0 :=
          List.count_eq_zero.mpr first.endsBefore.noLineFeed
        simp [first.text_eq, line, Line.next, noFeed, Nat.add_assoc]
      have rest :
          ∀ resolved reached,
            Session.lines parser (line.next more) resolved reached =
              (follow parser (layOut
                (remainingLines more (line.next more).offset
                  (line.next more).line) resolved) reached).map
                (⟨[], offset + byteLength text,
                  number + text.count '\n'⟩, ·) := by
        intro resolved reached
        rw [finish]
        exact inductionHypothesis reached _ _ resolved
      rw [lines_of_unread parser progress unread, start,
        line_eq parser progress first, remainingLines_eq first]
      by_cases logical : line.isLogical = true
      · rw [if_pos logical, if_pos logical, layOut, follow_andThen]
        cases follow parser (line.course indentation) progress with
        | error halt =>
            rfl
        | ok reached =>
            exact rest reached.1 reached.2
      · rw [if_neg logical, if_neg logical]
        exact rest indentation progress

/-- The end of a session closes the open blocks and pushes the last token. -/
theorem conclude_eq
    (source : String)
    (indentation : Indentation) :
    conclude parser (sourceEnd source) indentation progress =
      (follow parser (closeBlocks source indentation) progress).bind
        fun reached => finish parser reached.2 reached.1 := by
  have closed : indentation.drain.1 = indentation.depth := rfl
  rw [conclude, closed, follow, closeBlocks]
  by_cases flat : indentation.depth = 0
  · simp only [flat, Nat.lt_irrefl, ↓reduceIte]
    rfl
  · have nested : 0 < indentation.depth := Nat.pos_of_ne_zero flat
    simp only [flat, nested, ↓reduceIte, play_note, play_replicate_push]
    cases deliverCopies parser ((sourceEnd source).token .dedent 0)
      indentation.depth (progress.record
        (.closing (sourceEnd source).line indentation.depth)) <;> rfl

end

/-- A session follows the course of its source and pushes the end of the input. -/
theorem drive_eq
    (parser : Parser σ ω)
    (source : String) :
    drive parser source =
      (follow parser (courseOf source) (.start parser)).bind fun reached =>
        (finish parser reached.2 reached.1).map
          ((sourceEnd source).line, ·) := by
  have logical :
      remainingLines source.toList 0 1 = logicalLines source := rfl
  have atEnd :
      (⟨[], 0 + byteLength source.toList, 1 + source.toList.count '\n'⟩ : Cursor) =
        sourceEnd source := by
    rw [Nat.zero_add]
    rfl
  rw [drive, Cursor.start_eq, lines_eq, logical, atEnd, courseOf, follow_andThen]
  cases follow parser (layOut (logicalLines source) .topLevel)
      (.start parser) with
  | error halt =>
      rfl
  | ok reached =>
      simp only [Except.map, Except.bind, conclude_eq]
      cases follow parser (closeBlocks source reached.1) reached.2 with
      | error halt =>
          rfl
      | ok closed =>
          dsimp only
          cases finish parser closed.2 closed.1 <;> rfl

end Session

end LayoutLexer
