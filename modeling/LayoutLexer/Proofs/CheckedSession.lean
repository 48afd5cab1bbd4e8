import LayoutLexer.Proofs.CheckedScan
import LayoutLexer.Proofs.OpenLevels

namespace LayoutLexer

/-!
# Checked sessions

A session can also be run on a source as a whole and a byte offset in it. All it
knows of the unread text is then a slice of the source, and all it keeps of the
open blocks is the list of their widths. The sessions of this module check every
slice they take and every subtraction they make, and they count: the scans in a
line and the lines themselves are limited. They have no result if a slice or a
difference is missing or a limit is exceeded.

They have a result for every source and every parser, with no more lines than the
source has, and it is that of `Session.drive` (`Checked.drive_eq`).
-/

namespace Checked

open Session

/-! ### Definitions -/

/-- The last place of a width among the open ones. -/
def lastPosition (width : Nat) : List Nat → Option Nat
  | [] =>
      none
  | level :: others =>
      match lastPosition width others with
      | some target =>
          some (target + 1)
      | none =>
          if level = width then
            some 0
          else
            none

/-- Apply the width of a line to the open widths, outermost first. -/
def resolve
    (levels : List Nat)
    (width : Nat) :
    Option (Except IndentMismatch (IndentChange × List Nat)) :=
  if levels.getLastD 0 < width then
    some (.ok (.indent, levels ++ [width]))
  else if width = levels.getLastD 0 then
    some (.ok (.unchanged, levels))
  else
    match lastPosition width levels with
    | some target => do
        let closed ← difference (← difference levels.length 1) target
        return .ok (.dedent closed, levels.take (target + 1))
    | none =>
        some (.error ⟨width, levels⟩)

/-- A byte of a source, and the line that it is on. -/
structure Position where
  offset : Nat
  line : Nat
  deriving Repr, DecidableEq

namespace Position

def advance (position : Position) (length : Nat) : Position :=
  { position with offset := position.offset + length }

def nextLine (position : Position) : Position :=
  { position with line := position.line + 1 }

end Position

/-- A slice of a source, and where it stands. -/
structure Lexeme where
  text : String
  line : Nat
  span : Span

/-- The token of some kind that a slice forms. -/
def Lexeme.token (lexeme : Lexeme) (kind : TokenKind) : Token where
  kind := kind
  text := lexeme.text
  line := lexeme.line
  span := lexeme.span

section

variable (parser : Parser σ ω)
variable (source : String)

/-- The unread text. -/
def rest (position : Position) : Option String :=
  slice source position.offset source.utf8ByteSize

/-- The slice of the next bytes. -/
def lexeme (position : Position) (length : Nat) : Option Lexeme := do
  let text ← slice source position.offset (position.offset + length)
  return ⟨text, position.line, ⟨position.offset, position.offset + length⟩⟩

/-- Resolve the width of a line and push the indents or dedents it makes. -/
def resolveWidth
    (levels : List Nat)
    (width : Nat)
    (indent : Lexeme)
    (progress : Progress σ) :
    Option (Except (Halt σ) (List Nat × Progress σ)) := do
  match ← resolve levels width with
  | .error mismatch =>
      return .error
        ⟨.indentation indent.line width indent.span mismatch.levels, progress⟩
  | .ok (.unchanged, resolved) =>
      return .ok (resolved, progress)
  | .ok (.indent, resolved) =>
      return (deliver parser (progress.record (.indent indent.line width))
        (indent.token .indent)).map (resolved, ·)
  | .ok (.dedent closed, resolved) =>
      return (deliverCopies parser (indent.token .dedent) closed
        (progress.record (.dedent indent.line width closed))).map (resolved, ·)

/-- Push the tokens of a line, with no more than so many scans. -/
def statement :
    Nat → Position → Progress σ →
      Option (Except (Halt σ) (Position × Progress σ))
  | 0, _, _ =>
      none
  | scans + 1, position, progress => do
      match ← scan (← rest source position) with
      | .token kind length =>
          let found ← lexeme source position length
          match deliver parser progress (found.token kind) with
          | .error halt =>
              return .error halt
          | .ok next =>
              statement scans (position.advance length) next
      | .blank length =>
          statement scans (position.advance length) progress
      | .comment length =>
          statement scans (position.advance length) progress
      | .lineEnd length =>
          let found ← lexeme source position length
          return (deliver parser progress (found.token .newline)).map
            ((position.advance length).nextLine, ·)
      | .finished =>
          return .ok (position, progress)
      | .unmatched c =>
          let found ← lexeme source position c.utf8Size
          return .error ⟨.lexical c position.line found.span, progress⟩

/-- Whether the rest of a line, behind its blank run, holds no token. -/
def endsLine (text : String) : Bool :=
  text.isEmpty || [0x23].isPrefixOf (Bytes.ofString text) ||
    (Bytes.terminatorLength? (Bytes.ofString text)).isSome

/-- The place behind the next line feed, or the end of the source. -/
def skipLine (position : Position) : Option Position := do
  match (Bytes.ofString (← rest source position)).idxOf? 0x0A with
  | some feed =>
      return (position.advance (feed + 1)).nextLine
  | none =>
      return { position with offset := source.utf8ByteSize }

/-- Read one line, and push what it holds. -/
def line
    (position : Position)
    (levels : List Nat)
    (progress : Progress σ) :
    Option (Except (Halt σ) (Position × List Nat × Progress σ)) := do
  let text ← rest source position
  let width := Bytes.blankRun (Bytes.ofString text)
  if endsLine (← slice text width text.utf8ByteSize) then
    return .ok (← skipLine source position, levels, progress)
  else
    let indent ← lexeme source position width
    match ← resolveWidth parser levels width indent progress with
    | .error halt =>
        return .error halt
    | .ok (resolved, progress) =>
        let stated ←
          statement parser source (source.utf8ByteSize + 1)
            (position.advance width) progress
        return stated.map fun reached => (reached.1, resolved, reached.2)

/-- Read all lines, if there are no more than so many. -/
def lines
    (limit : Nat)
    (position : Position)
    (levels : List Nat)
    (progress : Progress σ) :
    Option (Except (Halt σ) (Position × List Nat × Progress σ)) := do
  if (← rest source position).isEmpty then
    return .ok (position, levels, progress)
  else
    match limit with
    | 0 =>
        none
    | limit + 1 =>
        match ← line parser source position levels progress with
        | .error halt =>
            return .error halt
        | .ok (next, resolved, progress) =>
            lines limit next resolved progress

/-- Close the open blocks and push the end of the input. -/
def conclude
    (position : Position)
    (levels : List Nat)
    (progress : Progress σ) :
    Option (Except (Halt σ) (Progress σ)) := do
  let found ← lexeme source position 0
  -- This subtraction is meant to stop at zero, so it is not checked.
  let closed := levels.length - 1
  let noted :=
    if 0 < closed then
      progress.record (.closing found.line closed)
    else
      progress
  match deliverCopies parser (found.token .dedent) closed noted with
  | .error halt =>
      return .error halt
  | .ok progress =>
      return finish parser progress (found.token .eof)

/-- Read a whole source, if it has no more than so many lines. -/
def drive (limit : Nat) : Option (Except (Halt σ) (Nat × Progress σ)) := do
  match ← lines parser source limit ⟨0, 1⟩ [0] (.start parser) with
  | .error halt =>
      return .error halt
  | .ok (position, levels, progress) =>
      let concluded ← conclude parser source position levels progress
      return concluded.map (position.line, ·)

end

/-! ### Open widths -/

theorem lastPosition_concat
    (width level : Nat)
    (levels : List Nat) :
    lastPosition width (levels ++ [level]) =
      if level = width then
        some levels.length
      else
        lastPosition width levels := by
  induction levels with
  | nil =>
      rfl
  | cons outer levels inductionHypothesis =>
      rw [List.cons_append, lastPosition, inductionHypothesis]
      by_cases same : level = width
      · rw [if_pos same, if_pos same]
        rfl
      · rw [if_neg same, if_neg same, lastPosition]

/-- The last place of a width is the first one from the other end. -/
theorem lastPosition_reverse
    (width : Nat)
    (levels : List Nat) :
    match levels.idxOf? width with
    | some closed =>
        ∃ target,
          lastPosition width levels.reverse = some target ∧
            target + 1 + closed = levels.length
    | none =>
        lastPosition width levels.reverse = none := by
  induction levels with
  | nil =>
      rfl
  | cons level levels inductionHypothesis =>
      rw [List.reverse_cons, lastPosition_concat, List.idxOf?_cons]
      by_cases same : level = width
      · rw [if_pos same, if_pos (beq_iff_eq.mpr same)]
        exact ⟨levels.length, by rw [List.length_reverse], rfl⟩
      · have different : ¬ (level == width) = true := by
          simpa using same
        rw [if_neg same, if_neg different]
        cases found : levels.idxOf? width with
        | none =>
            rw [found] at inductionHypothesis
            exact inductionHypothesis
        | some closed =>
            rw [found] at inductionHypothesis
            obtain ⟨target, last, counted⟩ := inductionHypothesis
            refine ⟨target, last, ?_⟩
            rw [List.length_cons, ← counted]
            rfl

/-- The open widths resolve a width as the open blocks do. -/
theorem resolve_eq
    (indentation : Indentation)
    (width : Nat) :
    resolve indentation.levels width =
      some ((indentation.resolve width).map fun resolution =>
        (resolution.1, resolution.2.levels)) := by
  have top : indentation.levels.getLastD 0 = indentation.top := by
    rw [List.getLastD_eq_getLast?, indentation.getLast?_levels]
    rfl
  have turned : indentation.levels = (indentation.opened ++ [0]).reverse := by
    rw [List.reverse_append]
    rfl
  rw [resolve, top, Indentation.resolve]
  by_cases wider : indentation.top < width
  · rw [if_pos wider, if_pos wider]
    simp [Except.map, Indentation.levels]
  · rw [if_neg wider, if_neg wider]
    by_cases same : width = indentation.top
    · rw [if_pos same, if_pos same]
      rfl
    · rw [if_neg same, if_neg same]
      have last := lastPosition_reverse width (indentation.opened ++ [0])
      rw [← turned] at last
      cases found : (indentation.opened ++ [0]).idxOf? width with
      | none =>
          rw [found] at last
          rw [last]
          rfl
      | some closed =>
          rw [found] at last
          obtain ⟨target, isLast, counted⟩ := last
          rw [List.length_append, List.length_singleton] at counted
          have length : indentation.levels.length = target + 1 + closed := by
            rw [indentation.length_levels, counted]
            rfl
          have less : difference indentation.levels.length 1 = some (closed + target) := by
            rw [length, Nat.add_right_comm, Nat.add_comm target closed]
            exact difference_add (closed + target) 1
          have kept :
              indentation.levels.take (target + 1) =
                Indentation.levels ⟨indentation.opened.drop closed⟩ := by
            rw [Indentation.levels_drop (by omega), length, Nat.add_sub_cancel]
          rw [isLast, less]
          simp only [Option.bind_eq_bind, Option.bind_some, difference_add, kept]
          rfl

end Checked

/-! ### Positions -/

namespace Cursor

/-- The unread text of a cursor is what a source has from its offset on. -/
def UnreadIn (cursor : Cursor) (source : String) : Prop :=
  ∃ before, source.toList = before ++ cursor.rest ∧ cursor.offset = byteLength before

/-- Where a cursor stands. -/
def position (cursor : Cursor) : Checked.Position :=
  ⟨cursor.offset, cursor.line⟩

/-- The slice of the next characters. -/
def lexeme (cursor : Cursor) (length : Nat) : Checked.Lexeme where
  text := String.ofList (cursor.rest.take length)
  line := cursor.line
  span := cursor.spanOf length

/-- The same place, open blocks and progress, by a position and widths. -/
def inPositions
    (reached : Cursor × Indentation × Session.Progress σ) :
    Checked.Position × List Nat × Session.Progress σ :=
  (reached.1.position, reached.2.1.levels, reached.2.2)

@[simp] theorem token_lexeme
    (cursor : Cursor)
    (kind : TokenKind)
    (length : Nat) :
    (cursor.lexeme length).token kind = cursor.token kind length :=
  rfl

@[simp] theorem line_lexeme
    (cursor : Cursor)
    (length : Nat) :
    (cursor.lexeme length).line = cursor.line :=
  rfl

theorem unreadIn_start (source : String) : (start source).UnreadIn source :=
  ⟨[], by rw [start_eq]; rfl, rfl⟩

namespace UnreadIn

variable {cursor : Cursor}
variable {source : String}

theorem advance
    (unread : cursor.UnreadIn source)
    (length : Nat) :
    (cursor.advance length).UnreadIn source := by
  obtain ⟨before, shape, offset⟩ := unread
  refine ⟨before ++ cursor.rest.take length, ?_, ?_⟩
  · rw [shape, Cursor.advance, List.append_assoc, List.take_append_drop]
  · rw [Cursor.advance, offset, byteLength_append]

/-- The offset and the unread text make up the source. -/
theorem offset_add
    (unread : cursor.UnreadIn source) :
    cursor.offset + byteLength cursor.rest = source.utf8ByteSize := by
  obtain ⟨before, shape, offset⟩ := unread
  rw [utf8ByteSize_eq_byteLength, shape, byteLength_append, offset]

/-- The unread text is a slice. -/
theorem rest_eq
    (unread : cursor.UnreadIn source) :
    Checked.rest source cursor.position = some (String.ofList cursor.rest) := by
  obtain ⟨before, shape, offset⟩ := unread
  rw [Checked.rest, position, offset]
  exact Checked.slice_back shape

/-- The next characters are a slice. -/
theorem lexeme_eq
    (unread : cursor.UnreadIn source)
    (length : Nat) :
    Checked.lexeme source cursor.position (byteLength (cursor.rest.take length)) =
      some (cursor.lexeme length) := by
  obtain ⟨before, shape, offset⟩ := unread
  have parts :
      source.toList =
        before ++ (cursor.rest.take length ++ cursor.rest.drop length) := by
    rw [List.take_append_drop, shape]
  have taken := Checked.slice_eq parts
  rw [← offset] at taken
  rw [Checked.lexeme, position, taken]
  rfl

end UnreadIn

end Cursor

namespace Checked

open Session

variable {parser : Parser σ ω}
variable {source : String}

/-! ### Statements -/

/-- The character that is not matched is the next one. -/
theorem byteLength_take_one_of_unmatched
    {text : List Char}
    {c : Char}
    (scanned : LayoutLexer.scan text = .unmatched c) :
    byteLength (text.take 1) = c.utf8Size := by
  cases text with
  | nil =>
      cases scanned
  | cons first others =>
      have nothingRead : (LayoutLexer.scan (first :: others)).reads = false := by
        rw [scanned]
        rfl
      have same := (unmatched_of_scan nothingRead).symm.trans scanned
      cases same
      rfl

section

variable {cursor : Cursor}

/-- A statement by positions goes on by what stands at its cursor. -/
theorem statement_succ
    (unread : cursor.UnreadIn source)
    (progress : Progress σ)
    (scans : Nat) :
    statement parser source (scans + 1) cursor.position progress =
      match LayoutLexer.scan cursor.rest with
      | .token kind length =>
          match deliver parser progress (cursor.token kind length) with
          | .error halt =>
              some (.error halt)
          | .ok next =>
              statement parser source scans (cursor.advance length).position next
      | .blank length =>
          statement parser source scans (cursor.advance length).position progress
      | .comment length =>
          statement parser source scans (cursor.advance length).position progress
      | .lineEnd length =>
          some ((deliver parser progress (cursor.token .newline length)).map
            ((cursor.advance length).nextLine.position, ·))
      | .finished =>
          some (.ok (cursor.position, progress))
      | .unmatched c =>
          some (.error ⟨.lexical c cursor.line (cursor.spanOf 1), progress⟩) := by
  rw [statement, unread.rest_eq]
  simp only [Option.bind_eq_bind, Option.bind_some, scan_eq]
  cases scanned : LayoutLexer.scan cursor.rest with
  | token kind length =>
      simp only [inBytes, unread.lexeme_eq, Option.bind_some]
      rfl
  | blank length =>
      rfl
  | comment length =>
      rfl
  | lineEnd length =>
      simp only [inBytes, unread.lexeme_eq, Option.bind_some]
      rfl
  | finished =>
      rfl
  | unmatched c =>
      have found := unread.lexeme_eq 1
      rw [byteLength_take_one_of_unmatched scanned] at found
      simp only [inBytes, found, Option.bind_some]
      rfl

/-- With enough scans, a statement is the same by positions. -/
theorem statement_eq
    (unread : cursor.UnreadIn source)
    (progress : Progress σ)
    {scans : Nat}
    (enough : cursor.rest.length < scans) :
    statement parser source scans cursor.position progress =
      some ((Session.statement parser cursor progress).map fun reached =>
        (reached.1.position, reached.2)) := by
  induction scans generalizing cursor progress with
  | zero =>
      exact absurd enough (Nat.not_lt_zero _)
  | succ scans inductionHypothesis =>
      have later :
          ∀ length,
            (cursor.rest.drop length).length < cursor.rest.length →
            ∀ next,
              statement parser source scans (cursor.advance length).position next =
                some ((Session.statement parser (cursor.advance length) next).map
                  fun reached => (reached.1.position, reached.2)) := by
        intro length shorter next
        exact inductionHypothesis (unread.advance length) next
          (Nat.lt_of_lt_of_le shorter (Nat.le_of_lt_succ enough))
      rw [statement_succ unread progress scans]
      cases scanned : LayoutLexer.scan cursor.rest with
      | token kind length =>
          rw [statement_token parser progress scanned]
          dsimp only
          cases deliver parser progress (cursor.token kind length) with
          | error halt =>
              rfl
          | ok next =>
              exact later length (drop_scan_lt scanned rfl) next
      | blank length =>
          rw [statement_blank parser progress scanned]
          exact later length (drop_scan_lt scanned rfl) progress
      | comment length =>
          rw [statement_comment parser progress scanned]
          exact later length (drop_scan_lt scanned rfl) progress
      | lineEnd length =>
          rw [statement_lineEnd parser progress scanned]
          dsimp only
          cases deliver parser progress (cursor.token .newline length) <;> rfl
      | finished =>
          rw [statement_finished parser progress scanned]
          rfl
      | unmatched c =>
          rw [statement_unmatched parser progress scanned]
          rfl

/-! ### Lines -/

theorem isEmpty_ofList
    (text : List Char) :
    (String.ofList text).isEmpty = text.isEmpty := by
  rw [Bool.eq_iff_iff, String.isEmpty_iff, List.isEmpty_iff]
  simp

/-- A line is skipped by bytes where it is skipped by characters. -/
theorem endsLine_eq
    (text : List Char) :
    endsLine (String.ofList text) = LayoutLexer.endsLine text := by
  have mark : Bytes.encode ['#'] = [0x23] := by
    decide
  have marked : ['#'].isPrefixOf text = (text.head? == some '#') := by
    cases text with
    | nil =>
        rfl
    | cons c rest =>
        simp [List.isPrefixOf, eq_comm]
  have startsMarked :
      (Bytes.encode ['#']).isPrefixOf (Bytes.encode text) = ['#'].isPrefixOf text :=
    Bytes.isPrefixOf_encode text (List.forall_mem_singleton.mpr (by decide))
  rw [mark, marked] at startsMarked
  rw [endsLine, isEmpty_ofList, Bytes.ofString_ofList, startsMarked,
    Bytes.terminatorLength?_encode]
  rfl

theorem skipLine_eq
    (unread : cursor.UnreadIn source) :
    skipLine source cursor.position = some cursor.skipLine.position := by
  have noFeed : '\n' ∉ beforeLineFeed cursor.rest := by
    intro member
    have different := List.mem_takeWhile_imp member
    simp at different
  have whole :
      beforeLineFeed cursor.rest ++ fromLineFeed cursor.rest = cursor.rest :=
    List.takeWhile_append_dropWhile
  rw [skipLine, unread.rest_eq]
  simp only [Option.bind_eq_bind, Option.bind_some, Bytes.ofString_ofList]
  cases behind : fromLineFeed cursor.rest with
  | nil =>
      rw [behind, List.append_nil] at whole
      have notFound : (Bytes.encode cursor.rest).idxOf? 0x0A = none := by
        rw [← whole]
        exact Bytes.idxOf?_encode_eq_none noFeed
      rw [notFound, Cursor.skipLine, behind, whole]
      simp [Cursor.position, Cursor.advance, unread.offset_add]
  | cons feed others =>
      have isFeed : feed = '\n' := by
        have stops := List.head?_dropWhile_not (· != '\n') cursor.rest
        rw [fromLineFeed] at behind
        rw [behind] at stops
        simpa using stops
      rw [behind, isFeed] at whole
      have found :
          (Bytes.encode cursor.rest).idxOf? 0x0A =
            some (byteLength (beforeLineFeed cursor.rest)) := by
        nth_rewrite 1 [← whole]
        exact Bytes.idxOf?_encode_lineFeed noFeed others
      have passed :
          cursor.rest.take ((beforeLineFeed cursor.rest).length + 1) =
            beforeLineFeed cursor.rest ++ ['\n'] := by
        nth_rewrite 2 [← whole]
        rw [List.take_length_add_append]
        rfl
      rw [found, Cursor.skipLine, behind]
      simp only [Cursor.position, Cursor.advance, Cursor.nextLine, passed,
        byteLength_append]
      rfl

theorem resolveWidth_eq
    (cursor : Cursor)
    (width : Nat)
    (indentation : Indentation)
    (progress : Progress σ) :
    resolveWidth parser indentation.levels width (cursor.lexeme width) progress =
      some ((Session.resolveWidth parser cursor width indentation progress).map
        fun reached => (reached.1.levels, reached.2)) := by
  rw [resolveWidth, resolve_eq, Session.resolveWidth]
  simp only [Option.bind_eq_bind, Option.bind_some]
  cases indentation.resolve width with
  | error mismatch =>
      rfl
  | ok resolution =>
      obtain ⟨change, resolved⟩ := resolution
      cases change with
      | unchanged =>
          rfl
      | indent =>
          dsimp only [Except.map]
          rw [Cursor.token_lexeme, Cursor.line_lexeme]
          cases
            deliver parser (progress.record (.indent cursor.line width))
              (cursor.token .indent width) <;> rfl
      | dedent closed =>
          dsimp only [Except.map]
          rw [Cursor.token_lexeme, Cursor.line_lexeme]
          cases
            deliverCopies parser (cursor.token .dedent width) closed
              (progress.record (.dedent cursor.line width closed)) <;> rfl

/-- No text has more characters than bytes. -/
theorem length_le_byteLength
    (text : List Char) :
    text.length ≤ byteLength text := by
  induction text with
  | nil =>
      exact Nat.le_refl 0
  | cons c rest inductionHypothesis =>
      rw [List.length_cons, byteLength_cons, Nat.add_comm]
      exact Nat.add_le_add c.utf8Size_pos inductionHypothesis

/-- A line is the same by positions. -/
theorem line_eq
    (unread : cursor.UnreadIn source)
    (indentation : Indentation)
    (progress : Progress σ) :
    line parser source cursor.position indentation.levels progress =
      some ((Session.line parser cursor indentation progress).map
        Cursor.inPositions) := by
  have width := byteLength_take_blankRun cursor.rest
  have parts :
      (String.ofList cursor.rest).toList =
        cursor.rest.take (blankRun cursor.rest) ++
          cursor.rest.drop (blankRun cursor.rest) := by
    rw [String.toList_ofList, List.take_append_drop]
  have behind := slice_back parts
  rw [width] at behind
  have indent := unread.lexeme_eq (blankRun cursor.rest)
  rw [width] at indent
  have entered :
      cursor.position.advance (blankRun cursor.rest) =
        (cursor.advance (blankRun cursor.rest)).position := by
    rw [Cursor.advance, width]
    rfl
  have enough :
      (cursor.advance (blankRun cursor.rest)).rest.length <
        source.utf8ByteSize + 1 := by
    apply Nat.lt_succ_of_le
    calc
      (cursor.advance (blankRun cursor.rest)).rest.length ≤ cursor.rest.length :=
        cursor.length_rest_advance_le (blankRun cursor.rest)
      _ ≤ byteLength cursor.rest :=
        length_le_byteLength cursor.rest
      _ ≤ cursor.offset + byteLength cursor.rest :=
        Nat.le_add_left _ _
      _ = source.utf8ByteSize :=
        unread.offset_add
  rw [line, unread.rest_eq, Session.line]
  simp only [Option.bind_eq_bind, Option.bind_some, Bytes.ofString_ofList,
    Bytes.blankRun_encode, behind, endsLine_eq, indent, entered, resolveWidth_eq]
  split
  · rw [skipLine_eq unread]
    rfl
  · cases Session.resolveWidth parser cursor (blankRun cursor.rest) indentation
        progress with
    | error halt =>
        rfl
    | ok resolution =>
        obtain ⟨resolved, laidOut⟩ := resolution
        dsimp only [Except.map]
        rw [statement_eq (unread.advance (blankRun cursor.rest)) laidOut enough]
        cases Session.statement parser (cursor.advance (blankRun cursor.rest))
          laidOut <;> rfl

/-! ### Sources -/

/--
Between two positions of a source is one line: the text up to the next line feed
and this, or what is left of the source if there is none.
-/
inductive PassesLine (source : String) (position next : Position) : Prop where
  | terminated {before content after : List Char} :
      source.toList = before ++ (content ++ '\n' :: after) →
      '\n' ∉ content →
      position.offset = byteLength before →
      next = ⟨position.offset + byteLength content + 1, position.line + 1⟩ →
      PassesLine source position next
  | unterminated {before content : List Char} :
      source.toList = before ++ content →
      '\n' ∉ content →
      position.offset = byteLength before →
      next = ⟨source.utf8ByteSize, position.line⟩ →
      PassesLine source position next

/-- A line that is read to its end is the first one of the unread text. -/
theorem exists_firstLine_of_line
    {next : Cursor}
    {indentation resolved : Indentation}
    {progress after : Progress σ}
    (present : cursor.rest ≠ [])
    (completed :
      Session.line parser cursor indentation progress = .ok (next, resolved, after)) :
    ∃ content terminator more,
      FirstLine cursor.rest content terminator more ∧
        next = Line.next ⟨cursor.line, cursor.offset, content, terminator⟩ more := by
  obtain ⟨content, terminator, more, first⟩ := exists_firstLine present
  refine ⟨content, terminator, more, first, ?_⟩
  let line : Line := ⟨cursor.line, cursor.offset, content, terminator⟩
  have start : cursor = line.start.followedBy (line.terminator ++ more) := by
    obtain ⟨rest, offset, number⟩ := cursor
    dsimp only at first
    rw [first.text_eq]
    rfl
  rw [start, Session.line_eq parser progress first] at completed
  split at completed
  · cases followed : follow parser (line.course indentation) progress with
    | error halt =>
        rw [followed] at completed
        cases completed
    | ok reached =>
        rw [followed] at completed
        cases completed
        rfl
  · cases completed
    rfl

theorem unreadIn_next
    {content terminator more : List Char}
    (unread : cursor.UnreadIn source)
    (first : FirstLine cursor.rest content terminator more) :
    (Line.next ⟨cursor.line, cursor.offset, content, terminator⟩ more).UnreadIn
      source := by
  obtain ⟨before, shape, offset⟩ := unread
  refine ⟨before ++ (content ++ terminator), ?_, ?_⟩
  · rw [shape, first.text_eq]
    simp [Line.next]
  · rw [byteLength_append, ← offset]
    rfl

/-- From the first line of the unread text to the next one is one line. -/
theorem passesLine_next
    {content terminator more : List Char}
    (unread : cursor.UnreadIn source)
    (first : FirstLine cursor.rest content terminator more) :
    PassesLine source cursor.position
      (Line.next ⟨cursor.line, cursor.offset, content, terminator⟩ more).position := by
  have whole := unread.offset_add
  obtain ⟨before, shape, offset⟩ := unread
  obtain ⟨rest, start, number⟩ := cursor
  dsimp only at first shape offset whole
  cases first with
  | lineFeed _ _ noFeed _ =>
      refine .terminated shape noFeed offset ?_
      simp only [Cursor.position, Line.next, byteLength_append, Nat.add_assoc]
      rfl
  | returnFeed _ _ noFeed =>
      have returns :
          source.toList = before ++ ((content ++ ['\r']) ++ '\n' :: more) := by
        rw [shape, List.append_assoc, List.singleton_append]
      refine .terminated returns (by simpa using noFeed) offset ?_
      simp only [Cursor.position, Line.next, byteLength_append, Nat.add_assoc]
      rfl
  | unterminated _ noFeed _ =>
      refine .unterminated shape noFeed offset ?_
      simpa [Cursor.position, Line.next] using whole

theorem lines_of_present
    (unread : cursor.UnreadIn source)
    (present : cursor.rest ≠ [])
    (limit : Nat)
    (levels : List Nat)
    (progress : Progress σ) :
    lines parser source (limit + 1) cursor.position levels progress =
      (line parser source cursor.position levels progress).bind fun outcome =>
        match outcome with
        | .error halt =>
            some (.error halt)
        | .ok (next, resolved, progress) =>
            lines parser source limit next resolved progress := by
  have notEmpty : ¬ (String.ofList cursor.rest).isEmpty = true := by
    rw [isEmpty_ofList, List.isEmpty_iff]
    exact present
  rw [lines, unread.rest_eq]
  simp only [Option.bind_eq_bind, Option.bind_some, if_neg notEmpty]
  rfl

/-- All lines are the same by positions, if as many as there are may be read. -/
theorem lines_eq
    (unread : cursor.UnreadIn source)
    (indentation : Indentation)
    (progress : Progress σ)
    {limit : Nat}
    (enough : (cutLines cursor.rest).length ≤ limit) :
    lines parser source limit cursor.position indentation.levels progress =
      some ((Session.lines parser cursor indentation progress).map
        Cursor.inPositions) := by
  fun_induction Session.lines parser cursor indentation progress
    generalizing limit with
  | case1 cursor indentation progress atEnd =>
      rw [lines.eq_def, unread.rest_eq, atEnd]
      rfl
  | case2 cursor indentation progress present halt failed =>
      obtain ⟨content, terminator, more, first⟩ := exists_firstLine present
      rw [first.cutLines_eq, List.length_cons] at enough
      obtain ⟨limit, rfl⟩ := Nat.exists_eq_add_of_le' (Nat.one_le_of_lt enough)
      rw [lines_of_present unread present, line_eq unread, failed]
      rfl
  | case3 cursor indentation progress present next resolved reached completed
      inductionHypothesis =>
      obtain ⟨content, terminator, more, first, isNext⟩ :=
        exists_firstLine_of_line present completed
      rw [first.cutLines_eq, List.length_cons] at enough
      obtain ⟨limit, rfl⟩ := Nat.exists_eq_add_of_le' (Nat.one_le_of_lt enough)
      have nextUnread : next.UnreadIn source := isNext ▸ unreadIn_next unread first
      have nextEnough : (cutLines next.rest).length ≤ limit := by
        rw [isNext]
        exact Nat.le_of_succ_le_succ enough
      rw [lines_of_present unread present, line_eq unread, completed]
      exact inductionHypothesis nextUnread nextEnough

/-- When all lines are read, the cursor stands at the end of the source. -/
theorem atEnd_of_lines
    {last : Cursor}
    {indentation resolved : Indentation}
    {progress after : Progress σ}
    (unread : cursor.UnreadIn source)
    (completed :
      Session.lines parser cursor indentation progress = .ok (last, resolved, after)) :
    last.UnreadIn source ∧ last.rest = [] := by
  fun_induction Session.lines parser cursor indentation progress with
  | case1 cursor indentation progress atEnd =>
      cases completed
      exact ⟨unread, atEnd⟩
  | case2 =>
      cases completed
  | case3 cursor indentation progress present next resolved reached lineCompleted
      inductionHypothesis =>
      obtain ⟨content, terminator, more, first, isNext⟩ :=
        exists_firstLine_of_line present lineCompleted
      exact inductionHypothesis (isNext ▸ unreadIn_next unread first) completed

theorem conclude_eq
    (unread : cursor.UnreadIn source)
    (indentation : Indentation)
    (progress : Progress σ) :
    conclude parser source cursor.position indentation.levels progress =
      some (Session.conclude parser cursor indentation progress) := by
  have closed : indentation.levels.length - 1 = indentation.drain.1 := by
    rw [indentation.length_levels]
    rfl
  have found : lexeme source cursor.position 0 = some (cursor.lexeme 0) :=
    unread.lexeme_eq 0
  rw [conclude, found, Session.conclude]
  simp only [Option.bind_eq_bind, Option.bind_some, closed, Cursor.line_lexeme,
    Cursor.token_lexeme]
  cases deliverCopies parser (cursor.token .dedent 0) indentation.drain.1
    (if 0 < indentation.drain.1 then
      progress.record (.closing cursor.line indentation.drain.1)
    else
      progress) <;> rfl

end

theorem length_locateLines
    (number offset : Nat)
    (texts : List (List Char)) :
    (locateLines number offset texts).length = texts.length := by
  induction texts generalizing number offset with
  | nil =>
      rfl
  | cons text others inductionHypothesis =>
      rw [locateLines, List.length_cons, List.length_cons, inductionHypothesis]

/-- A session is the same by positions, with one call for each line. -/
theorem drive_eq
    (parser : Parser σ ω)
    (source : String) :
    drive parser source (physicalLines source).length =
      some (Session.drive parser source) := by
  have enough :
      (cutLines (Cursor.start source).rest).length ≤ (physicalLines source).length := by
    rw [Cursor.start_eq, physicalLines, length_locateLines]
  have read :
      lines parser source (physicalLines source).length ⟨0, 1⟩ [0]
          (.start parser) = _ :=
    lines_eq (Cursor.unreadIn_start source) .topLevel (.start parser) enough
  rw [drive, read, Session.drive]
  simp only [Option.bind_eq_bind, Option.bind_some]
  cases completed :
      Session.lines parser (.start source) .topLevel (.start parser) with
  | error halt =>
      rfl
  | ok reached =>
      obtain ⟨last, indentation, progress⟩ := reached
      obtain ⟨unread, _⟩ := atEnd_of_lines (Cursor.unreadIn_start source) completed
      dsimp only [Except.map, Cursor.inPositions]
      rw [conclude_eq unread]
      cases Session.conclude parser last indentation progress <;> rfl

/--
A source is read without a slice or a difference that is missing, and without a
call too many.
-/
structure ReadsSafely (parser : Parser σ ω) (source : String) : Prop where
  /-- All slices and differences are there, and one call for each line is enough. -/
  completes :
    drive parser source (physicalLines source).length =
      some (Session.drive parser source)
  /-- Unread text can be scanned, and the scan stays within it. -/
  scans :
    ∀ text ≠ "",
      scan text = some (inBytes text.toList (LayoutLexer.scan text.toList)) ∧
        ScansWithin text (inBytes text.toList (LayoutLexer.scan text.toList))
  /-- From wherever it starts, reading a line fails or passes exactly one. -/
  lines :
    ∀ (cursor : Cursor) (indentation : Indentation) (progress : Progress σ),
      cursor.UnreadIn source →
      cursor.rest ≠ [] →
      line parser source cursor.position indentation.levels progress =
          some ((Session.line parser cursor indentation progress).map
            Cursor.inPositions) ∧
        ∀ next resolved after,
          Session.line parser cursor indentation progress =
              .ok (next, resolved, after) →
            PassesLine source cursor.position next.position
  /-- Behind all lines is the end of the source. -/
  ends :
    ∀ cursor indentation progress,
      Session.lines parser (.start source) .topLevel (.start parser) =
          .ok (cursor, indentation, progress) →
        cursor.rest = [] ∧ cursor.offset = source.utf8ByteSize

/-- Every source is read safely, whatever its parser answers. -/
theorem session_readsSafely
    (parser : Parser σ ω)
    (source : String) :
    ReadsSafely parser source where
  completes := drive_eq parser source
  scans := by
    intro text present
    have scanned := scan_eq text.toList
    rw [String.ofList_toList] at scanned
    exact ⟨scanned, scansWithin_scan present⟩
  lines := by
    intro cursor indentation progress unread present
    refine ⟨line_eq unread indentation progress, ?_⟩
    intro next resolved after completed
    obtain ⟨content, terminator, more, first, isNext⟩ :=
      exists_firstLine_of_line present completed
    rw [isNext]
    exact passesLine_next unread first
  ends := by
    intro cursor indentation progress completed
    obtain ⟨unread, atEnd⟩ :=
      atEnd_of_lines (Cursor.unreadIn_start source) completed
    have whole := unread.offset_add
    rw [atEnd, byteLength_nil, Nat.add_zero] at whole
    exact ⟨atEnd, whole⟩

end Checked

end LayoutLexer
