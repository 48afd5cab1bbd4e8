import LayoutLexer.Proofs.Likeness
import LayoutLexer.Proofs.Positions

namespace LayoutLexer

/-!
# Line terminators

A line may end in a line feed or in a carriage return and a line feed. It makes
no difference which: a source that uses the first everywhere has the same tokens
as one that uses the second everywhere. Only the places change, because every
line feed takes one byte more, and the texts of the line ends.
-/

/-- The same text, with a carriage return before every line feed. -/
def returned (text : List Char) : List Char :=
  text.flatMap fun c => if c = '\n' then ['\r', '\n'] else [c]

/-- The same source, with a carriage return before every line feed. -/
def withReturns (source : String) : String :=
  String.ofList (returned source.toList)

/-- Where an offset is found when every line feed before it takes one byte more. -/
def widened (source : String) (offset : Nat) : Nat :=
  offset + (Span.textIn ⟨0, offset⟩ source).toList.count '\n'

/-- The same bytes, when every line feed takes one byte more. -/
def Span.withReturns (span : Span) (source : String) : Span where
  start := widened source span.start
  stop := widened source span.stop

/-- The same token of a source, with returns before the line feeds. -/
def Token.withReturns (token : Token) (source : String) : Token :=
  { token with
    text :=
      if token.kind = .newline ∧ token.text = "\n" then "\r\n" else token.text
    span := token.span.withReturns source }

/-- The same error of a source, with returns before the line feeds. -/
def SessionError.withReturns
    (error : SessionError)
    (source : String) :
    SessionError :=
  match error with
  | .lexical c line span =>
      .lexical c line (span.withReturns source)
  | .indentation line width span levels =>
      .indentation line width (span.withReturns source) levels
  | .parser line kind rejection span =>
      .parser line kind rejection (span.withReturns source)

/-- The same line, with a return before its line feed and those before it. -/
def Line.withReturn (line : Line) : Line :=
  { line with
    offset := line.offset + (line.number - 1)
    terminator := returned line.terminator }

/-! ### Texts -/

@[simp] theorem returned_append
    (first second : List Char) :
    returned (first ++ second) = returned first ++ returned second :=
  List.flatMap_append

theorem returned_cons
    (c : Char)
    (text : List Char) :
    returned (c :: text) =
      (if c = '\n' then ['\r', '\n'] else [c]) ++ returned text :=
  List.flatMap_cons

@[simp] theorem returned_lineFeed_cons
    (text : List Char) :
    returned ('\n' :: text) = '\r' :: '\n' :: returned text :=
  returned_cons '\n' text

theorem returned_of_noLineFeed
    {text : List Char}
    (noFeed : '\n' ∉ text) :
    returned text = text := by
  induction text with
  | nil =>
      rfl
  | cons c text inductionHypothesis =>
      have different : c ≠ '\n' :=
        fun isFeed => noFeed (isFeed ▸ List.mem_cons_self)
      have restNoFeed : '\n' ∉ text :=
        fun member => noFeed (List.mem_cons_of_mem c member)
      rw [returned_cons, if_neg different, inductionHypothesis restNoFeed]
      rfl

theorem byteLength_returned
    (text : List Char) :
    byteLength (returned text) = byteLength text + text.count '\n' := by
  induction text with
  | nil =>
      rfl
  | cons c text inductionHypothesis =>
      rw [returned_cons, byteLength_append, inductionHypothesis,
        byteLength_cons, List.count_cons]
      by_cases isFeed : c = '\n'
      · subst isFeed
        have feed : byteLength ['\r', '\n'] = Char.utf8Size '\n' + 1 := by
          decide
        simp only [↓reduceIte, feed, beq_self_eq_true]
        omega
      · simp only [isFeed, ↓reduceIte, byteLength_cons, byteLength_nil,
          beq_iff_eq]
        omega

theorem count_returned
    (text : List Char) :
    (returned text).count '\n' = text.count '\n' := by
  induction text with
  | nil =>
      rfl
  | cons c text inductionHypothesis =>
      rw [returned_cons, List.count_append, inductionHypothesis, List.count_cons]
      by_cases isFeed : c = '\n'
      · subst isFeed
        exact Nat.add_comm _ _
      · simp [isFeed]

/-! ### Lines -/

/-- The lines with returns, the first of which has some lines before it. -/
theorem locateLines_returned
    {text : List Char}
    (noReturn : '\r' ∉ text)
    (before offset : Nat) :
    locateLines (before + 1) (offset + before) (cutLines (returned text)) =
      (locateLines (before + 1) offset (cutLines text)).map Line.withReturn := by
  induction text using firstLine_induction generalizing before offset with
  | nil =>
      rfl
  | @line text content terminator more first inductionHypothesis =>
      cases first with
      | lineFeed _ _ noFeed noReturnLast =>
          have noReturnMore : '\r' ∉ more :=
            fun member => noReturn (by simp [member])
          have bytes :
              offset + before + byteLength (content ++ ['\r', '\n']) =
                offset + byteLength (content ++ ['\n']) + (before + 1) := by
            have feeds : byteLength ['\r', '\n'] = byteLength ['\n'] + 1 := by
              decide
            rw [byteLength_append, byteLength_append, feeds]
            omega
          have later := inductionHypothesis noReturnMore (before + 1)
            (offset + byteLength (content ++ ['\n']))
          rw [← bytes] at later
          rw [returned_append, returned_lineFeed_cons,
            returned_of_noLineFeed noFeed,
            Session.locateLines_eq (.returnFeed content (returned more) noFeed),
            Session.locateLines_eq (.lineFeed content more noFeed noReturnLast),
            List.map_cons]
          exact congrArg₂ List.cons rfl later
      | returnFeed =>
          exact absurd (by simp) noReturn
      | unterminated _ noFeed present =>
          rw [returned_of_noLineFeed noFeed,
            Session.locateLines_eq (.unterminated _ noFeed present),
            Session.locateLines_eq (.unterminated _ noFeed present)]
          rfl

theorem logicalLines_withReturns
    {source : String}
    (noReturn : '\r' ∉ source.toList) :
    logicalLines (withReturns source) =
      (logicalLines source).map Line.withReturn := by
  have lines := locateLines_returned noReturn 0 0
  rw [logicalLines, physicalLines, withReturns, String.toList_ofList]
  exact (congrArg (List.filter Line.isLogical) lines).trans List.filter_map

theorem sourceEnd_withReturns
    (source : String) :
    sourceEnd (withReturns source) =
      (sourceEnd source).movedBy ⟨0, (sourceEnd source).line - 1⟩ := by
  have feeds : (sourceEnd source).line - 1 = source.toList.count '\n' :=
    Nat.add_sub_cancel_left _ _
  rw [feeds, sourceEnd, withReturns, String.toList_ofList, byteLength_returned,
    count_returned]
  rfl

/-! ### Places -/

section

variable {source : String}

theorem widened_byteLength
    {before after : List Char}
    (shape : source.toList = before ++ after) :
    widened source (byteLength before) =
      byteLength before + before.count '\n' := by
  have number := lineNumber_byteLength shape
  rw [lineNumber] at number
  rw [widened]
  omega

/-- Reading moves a place by the line feeds that are passed, too. -/
theorem Cursor.StandsIn.widened_behind
    {cursor : Cursor}
    (stands : cursor.StandsIn source)
    (length : Nat) :
    widened source (cursor.offset + byteLength (cursor.rest.take length)) =
      cursor.offset + (cursor.line - 1) +
        (byteLength (cursor.rest.take length) +
          (cursor.rest.take length).count '\n') := by
  obtain ⟨before, after, shape, offset, line⟩ := stands
  have ahead :
      source.toList =
        (before ++ cursor.rest.take length) ++ (cursor.rest.drop length ++ after) := by
    rw [shape, List.append_assoc, ← List.append_assoc (cursor.rest.take length),
      List.take_append_drop]
  have found := widened_byteLength ahead
  rw [byteLength_append, List.count_append, ← offset] at found
  omega

theorem Cursor.StandsIn.widened_offset
    {cursor : Cursor}
    (stands : cursor.StandsIn source) :
    widened source cursor.offset = cursor.offset + (cursor.line - 1) :=
  stands.widened_behind 0

/-- Within a line all bytes are moved alike, one for each line before. -/
theorem Cursor.StandsIn.spanOf_withReturns
    {cursor : Cursor}
    {length : Nat}
    (stands : cursor.StandsIn source)
    (noFeed : '\n' ∉ cursor.rest.take length) :
    (cursor.spanOf length).withReturns source =
      (cursor.spanOf length).movedBy ⟨0, cursor.line - 1⟩ := by
  have stop := stands.widened_behind length
  rw [List.count_eq_zero.mpr noFeed, Nat.add_zero, Nat.add_right_comm] at stop
  exact congrArg₂ Span.mk stands.widened_offset stop

theorem Token.withReturns_eq_movedBy
    {token : Token}
    {bytes : Nat}
    (notLineFeed : ¬ (token.kind = .newline ∧ token.text = "\n"))
    (span : token.span.withReturns source = token.span.movedBy ⟨0, bytes⟩) :
    token.withReturns source = token.movedBy ⟨0, bytes⟩ := by
  rw [Token.withReturns, if_neg notLineFeed, span]
  rfl

theorem SessionError.withReturns_eq_movedBy
    {error : SessionError}
    {bytes : Nat}
    (span : error.span.withReturns source = error.span.movedBy ⟨0, bytes⟩) :
    error.withReturns source = error.movedBy ⟨0, bytes⟩ := by
  cases error <;>
    simp only [SessionError.span] at span <;>
    simp [SessionError.withReturns, SessionError.movedBy, span]

/-- The token of a line feed becomes that of a return and a line feed. -/
theorem Line.StandsIn.newline_withReturn
    {line : Line}
    (stands : line.StandsIn source)
    (noReturn : '\r' ∉ source.toList) :
    pushedBy line.withReturn.newline =
      (pushedBy line.newline).map (·.withReturns source) := by
  have start := stands.ending.widened_offset
  have stop := stands.ending.widened_behind line.terminator.length
  obtain ⟨number, offset, content, terminator⟩ := line
  obtain ⟨before, text, more, shape, first, _⟩ := stands
  dsimp only [Line.ending] at first start stop
  cases first with
  | lineFeed =>
      have feeds :
          byteLength ['\n'] + List.count '\n' ['\n'] = byteLength ['\r', '\n'] := by
        decide
      have moved := Nat.add_right_comm offset (byteLength content) (number - 1)
      rw [moved] at start
      rw [List.take_length, feeds, moved] at stop
      have span :
          Span.withReturns
              ⟨offset + byteLength content,
                offset + byteLength content + byteLength ['\n']⟩ source =
            ⟨offset + (number - 1) + byteLength content,
              offset + (number - 1) + byteLength content +
                byteLength ['\r', '\n']⟩ :=
        congrArg₂ Span.mk start stop
      rw [newline_of_terminated (List.cons_ne_nil _ _),
        newline_of_terminated (List.cons_ne_nil _ _), List.map_singleton,
        Token.withReturns]
      exact congrArg (fun place => [Token.mk .newline "\r\n" number place]) span.symm
  | returnFeed =>
      exact absurd (by simp [shape]) noReturn
  | unterminated =>
      rfl

theorem Line.StandsIn.alike_withReturn
    {line : Line}
    (stands : line.StandsIn source)
    (noReturn : '\r' ∉ source.toList) :
    line.Alike (.ofMaps (·.withReturns source) (·.withReturns source))
      line.withReturn := by
  have noFeed :
      ∀ count length, '\n' ∉ (line.start.advance count).rest.take length :=
    fun count length member =>
      stands.noLineFeed (List.mem_of_mem_drop (List.mem_of_mem_take member))
  have start :
      line.withReturn.start = line.start.movedBy ⟨0, line.number - 1⟩ :=
    rfl
  refine Line.alike_of_movedBy start ?_ ?_ (stands.newline_withReturn noReturn)
  · intro token count length notNewline span
    apply Token.withReturns_eq_movedBy fun lineFeed => notNewline lineFeed.1
    rw [span]
    exact (stands.advance count).spanOf_withReturns (noFeed count length)
  · intro error count length span
    apply SessionError.withReturns_eq_movedBy
    rw [span]
    exact (stands.advance count).spanOf_withReturns (noFeed count length)

end

/-- A source with returns before its line feeds is like the one without. -/
theorem alike_withReturns
    {source : String}
    (noReturn : '\r' ∉ source.toList) :
    Alike (.ofMaps (·.withReturns source) (·.withReturns source)) source
      (withReturns source) where
  lines := by
    rw [logicalLines_withReturns noReturn, List.forall₂_map_right_iff,
      List.forall₂_same]
    intro line member
    exact (standsIn_of_mem_logicalLines member).alike_withReturn noReturn
  ending := by
    intro kind
    have notLineFeed :
        ¬ (kind = .newline ∧ ((sourceEnd source).token kind 0).text = "\n") :=
      fun lineFeed => absurd lineFeed.2 (show "" ≠ "\n" by decide)
    have noFeed : '\n' ∉ (sourceEnd source).rest.take 0 :=
      List.not_mem_nil
    have span := (sourceEnd_standsIn source).spanOf_withReturns noFeed
    rw [sourceEnd_withReturns, Cursor.token_movedBy]
    exact (Token.withReturns_eq_movedBy notLineFeed span).symm

/--
It makes no difference whether lines end in a line feed or in a return and a line
feed. The tokens are the same but for the texts of the line ends, and so is the
error if there is one; every offset is moved by the line feeds before it.
-/
theorem line_terminators_interchangeable
    {source : String}
    (noReturn : '\r' ∉ source.toList) :
    lex (withReturns source) =
        ((lex source).mapError (·.withReturns source)).map
          (List.map (·.withReturns source)) ∧
      check (withReturns source) =
        (check source).mapError (·.withReturns source) := by
  have alike := alike_withReturns noReturn
  exact ⟨alike.lex_eq,
    alike.check_eq (fun _ => rfl) (fun _ => rfl) (fun _ _ => rfl)⟩

/-- A block with a comment and a blank line: the return is no part of either. -/
theorem line_terminators_interchangeable_block :
    withReturns "if x:\n\ty # é\n\nz" = "if x:\r\n\ty # é\r\n\r\nz" ∧
      '\r' ∉ "if x:\n\ty # é\n\nz".toList ∧
      (∃ tokens,
        lex (withReturns "if x:\n\ty # é\n\nz") = .ok tokens ∧
          tokens.map (fun token => (token.text, token.line, token.span.start)) =
            [("if", 1, 0), ("x", 1, 3), (":", 1, 4), ("\r\n", 1, 5), ("\t", 2, 7),
              ("y", 2, 8), ("\r\n", 2, 14), ("", 4, 18), ("z", 4, 18),
              ("", 4, 19)]) ∧
      check (withReturns "if x:\n\ty # é\n\nz") = .ok ⟨3, 1⟩ := by
  have noReturn : '\r' ∉ "if x:\n\ty # é\n\nz".toList := by
    decide
  have lexed :
      lex "if x:\n\ty # é\n\nz" = .ok (stream "if x:\n\ty # é\n\nz") := by
    rw [lex, (collect_eq _).2]
    decide +kernel
  have checked : check "if x:\n\ty # é\n\nz" = .ok ⟨3, 1⟩ :=
    check_eq_ok_iff.mpr (by decide +kernel)
  obtain ⟨lexing, checking⟩ := line_terminators_interchangeable noReturn
  rw [lexed] at lexing
  rw [checked] at checking
  exact ⟨by decide +kernel, noReturn, ⟨_, lexing, by decide +kernel⟩, checking⟩

end LayoutLexer
