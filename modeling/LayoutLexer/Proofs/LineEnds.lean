import LayoutLexer.Proofs.Lines

namespace LayoutLexer

/-!
# Where lines end

The scanner sees a line together with all of the source behind it. This module
relates what it sees to the content of the line alone. A tail is what can stand
behind a content: nothing, or a terminator and whatever comes after. In front of
a tail every character is read as if the content were the whole text
(`EndsBefore.scan_followedBy`), and a comment reaches exactly to the tail.

A carriage return makes this delicate. It belongs to the terminator right
before a line feed and to the content elsewhere, so a content that is followed
by a bare line feed does not end in one.
-/

/-! ### Places -/

@[simp] theorem byteLength_nil : byteLength [] = 0 :=
  rfl

@[simp] theorem byteLength_cons
    (c : Char)
    (rest : List Char) :
    byteLength (c :: rest) = c.utf8Size + byteLength rest :=
  rfl

@[simp] theorem byteLength_append
    (first second : List Char) :
    byteLength (first ++ second) = byteLength first + byteLength second := by
  induction first with
  | nil =>
      simp
  | cons c rest inductionHypothesis =>
      rw [List.cons_append, byteLength_cons, byteLength_cons,
        inductionHypothesis, Nat.add_assoc]

theorem drop_blankRun
    (text : List Char) :
    text.drop (blankRun text) = text.dropWhile isBlank := by
  have split :
      text.takeWhile isBlank ++ text.dropWhile isBlank = text :=
    List.takeWhile_append_dropWhile
  calc
    text.drop (blankRun text) =
        (text.takeWhile isBlank ++ text.dropWhile isBlank).drop
          (text.takeWhile isBlank).length := by
      rw [split, blankRun]
    _ = text.dropWhile isBlank :=
      List.drop_left

namespace Cursor

@[simp] theorem advance_zero (cursor : Cursor) : cursor.advance 0 = cursor := by
  simp [advance]

theorem advance_advance
    (cursor : Cursor)
    (first second : Nat) :
    (cursor.advance first).advance second = cursor.advance (first + second) := by
  have offsets :
      cursor.offset + byteLength (cursor.rest.take first) +
          byteLength ((cursor.rest.drop first).take second) =
        cursor.offset + byteLength (cursor.rest.take (first + second)) := by
    rw [List.take_add, byteLength_append, Nat.add_assoc]
  simp [advance, offsets]

theorem advance_append
    (first second : List Char)
    (offset line : Nat) :
    advance ⟨first ++ second, offset, line⟩ first.length =
      ⟨second, offset + byteLength first, line⟩ := by
  simp [advance]

/-- Reading on to the end of the unread text. -/
theorem advance_length_advance
    {cursor : Cursor}
    {length : Nat}
    (within : length ≤ cursor.rest.length) :
    (cursor.advance length).advance (cursor.advance length).rest.length =
      cursor.advance cursor.rest.length := by
  have total : length + (cursor.advance length).rest.length =
      cursor.rest.length := by
    simp only [advance, List.length_drop]
    omega
  rw [advance_advance, total]

/-- The same place, with more text behind the unread one. -/
def followedBy (cursor : Cursor) (tail : List Char) : Cursor :=
  { cursor with rest := cursor.rest ++ tail }

@[simp] theorem rest_followedBy
    (cursor : Cursor)
    (tail : List Char) :
    (cursor.followedBy tail).rest = cursor.rest ++ tail :=
  rfl

section

variable {cursor : Cursor}
variable {length : Nat}

theorem spanOf_followedBy
    (within : length ≤ cursor.rest.length)
    (tail : List Char) :
    (cursor.followedBy tail).spanOf length = cursor.spanOf length := by
  simp [followedBy, spanOf, List.take_append_of_le_length within]

theorem token_followedBy
    (within : length ≤ cursor.rest.length)
    (kind : TokenKind)
    (tail : List Char) :
    (cursor.followedBy tail).token kind length = cursor.token kind length := by
  simp [token, followedBy, spanOf, List.take_append_of_le_length within]

theorem advance_followedBy
    (within : length ≤ cursor.rest.length)
    (tail : List Char) :
    (cursor.followedBy tail).advance length =
      (cursor.advance length).followedBy tail := by
  simp [advance, followedBy, List.take_append_of_le_length within,
    List.drop_append_of_le_length within]

end

end Cursor

/-! ### Contents and tails -/

/-- What can stand behind the content of a line. -/
inductive Tail (content : List Char) : List Char → Prop where
  | sourceEnd :
      Tail content []
  | lineFeed (more : List Char) :
      content.getLast? ≠ some '\r' →
      Tail content ('\n' :: more)
  | returnFeed (more : List Char) :
      Tail content ('\r' :: '\n' :: more)

/-- A content holds no line feed and is followed by a tail. -/
structure EndsBefore (content tail : List Char) : Prop where
  noLineFeed : '\n' ∉ content
  tail : Tail content tail

namespace EndsBefore

variable {content tail : List Char}

/-- A tail goes on to end what is left of a content. -/
theorem drop
    (ends : EndsBefore content tail)
    (count : Nat) :
    EndsBefore (content.drop count) tail where
  noLineFeed := fun member => ends.noLineFeed (List.mem_of_mem_drop member)
  tail := by
    cases ends.tail with
    | sourceEnd =>
        exact .sourceEnd
    | lineFeed more noReturn =>
        refine .lineFeed more ?_
        rw [List.getLast?_drop]
        split
        · simp
        · exact noReturn
    | returnFeed more =>
        exact .returnFeed more

theorem separated (ends : EndsBefore content tail) : Separated tail := by
  intro c first
  cases ends.tail with
  | sourceEnd =>
      simp at first
  | lineFeed more noReturn =>
      cases first
      rfl
  | returnFeed more =>
      cases first
      rfl

theorem tail_not_blank
    (ends : EndsBefore content tail) :
    ∀ c, tail.head? = some c → isBlank c = false := by
  intro c first
  cases ends.tail with
  | sourceEnd =>
      simp at first
  | lineFeed more noReturn =>
      cases first
      rfl
  | returnFeed more =>
      cases first
      rfl

theorem blankRun_append
    (ends : EndsBefore content tail) :
    blankRun (content ++ tail) = blankRun content := by
  rw [blankRun, blankRun, takeWhile_append_of_stop ends.tail_not_blank]

theorem beforeLineFeed_append
    (ends : EndsBefore content tail) :
    beforeLineFeed (content ++ tail) = content ++ beforeLineFeed tail := by
  rw [beforeLineFeed, beforeLineFeed, List.takeWhile_append_of_pos]
  intro c member
  have different : c ≠ '\n' :=
    fun isFeed => ends.noLineFeed (isFeed ▸ member)
  simpa using different

theorem fromLineFeed_append
    (ends : EndsBefore content tail) :
    fromLineFeed (content ++ tail) = fromLineFeed tail := by
  rw [fromLineFeed, fromLineFeed, List.dropWhile_append_of_pos]
  intro c member
  have different : c ≠ '\n' :=
    fun isFeed => ends.noLineFeed (isFeed ▸ member)
  simpa using different

/-- A comment reaches to the end of the content. -/
theorem commentRun_append
    (ends : EndsBefore content tail) :
    commentRun (content ++ tail) = content.length := by
  rw [commentRun, ends.beforeLineFeed_append, ends.fromLineFeed_append]
  cases ends.tail with
  | sourceEnd =>
      simp [fromLineFeed, beforeLineFeed]
  | lineFeed more noReturn =>
      simp [fromLineFeed, beforeLineFeed, noReturn]
  | returnFeed more =>
      simp [fromLineFeed, beforeLineFeed]

/-- No terminator starts inside a content. -/
theorem terminatorLength?_append
    {c : Char}
    {rest : List Char}
    (ends : EndsBefore (c :: rest) tail) :
    terminatorLength? (c :: (rest ++ tail)) = none := by
  have noFeed : c ≠ '\n' := by
    intro isFeed
    exact ends.noLineFeed (isFeed ▸ List.mem_cons_self)
  by_cases isReturn : c = '\r'
  · subst isReturn
    cases rest with
    | nil =>
        -- The carriage return is the last character of the content, so the
        -- tail cannot be a bare line feed.
        cases ends.tail with
        | sourceEnd =>
            rfl
        | lineFeed more noReturn =>
            exact absurd rfl noReturn
        | returnFeed more =>
            rfl
    | cons next others =>
        have nextNoFeed : next ≠ '\n' := by
          intro isFeed
          exact ends.noLineFeed (isFeed ▸ by simp)
        simp [terminatorLength?, nextNoFeed]
  · simp [terminatorLength?, noFeed, isReturn]

/-- In front of a tail, a content is scanned as if it were the whole text. -/
theorem scan_followedBy
    {cursor : Cursor}
    {c : Char}
    {rest : List Char}
    (ends : EndsBefore cursor.rest tail)
    (ahead : cursor.rest = c :: rest) :
    scan (cursor.followedBy tail).rest =
      if isBlank c then
        .blank (blankRun cursor.rest)
      else if c = '#' then
        .comment cursor.rest.length
      else
        match longestMatch Rule.all cursor.rest with
        | some (kind, length) => .token kind length
        | none => .unmatched c := by
  have blanks := ends.blankRun_append
  have comment := ends.commentRun_append
  have longest := longestMatch_append ends.separated cursor.rest
  have noTerminator := (ahead ▸ ends).terminatorLength?_append
  rw [Cursor.rest_followedBy, ahead, List.cons_append] at *
  by_cases blank : isBlank c = true
  · simp [scan, blank, blanks]
  · by_cases mark : c = '#'
    · rw [scan, if_neg blank, if_pos mark, comment, if_neg blank, if_pos mark]
    · cases found : longestMatch Rule.all (c :: rest) with
      | none =>
          simp [scan, blank, mark, noTerminator, longest, found]
      | some matched =>
          simp [scan, blank, mark, noTerminator, longest, found]

end EndsBefore

namespace Line

/-- The blank run of a line lies in its content. -/
theorem width_le_length
    (line : Line) :
    line.width ≤ line.content.length :=
  (List.takeWhile_prefix isBlank).length_le

/-- A line is skipped where it holds no more than blanks and a comment. -/
theorem endsLine_eq_not_isLogical
    {line : Line}
    {tail : List Char}
    (ends : EndsBefore line.content tail) :
    endsLine ((line.content ++ tail).drop line.width) = !line.isLogical := by
  have split :
      (line.content ++ tail).drop line.width =
        line.content.dropWhile isBlank ++ tail := by
    rw [List.drop_append_of_le_length line.width_le_length, width,
      drop_blankRun]
  have bodyEnds : EndsBefore (line.content.dropWhile isBlank) tail := by
    have dropped := ends.drop line.width
    rwa [width, drop_blankRun] at dropped
  rw [split, isLogical]
  cases body : line.content.dropWhile isBlank with
  | nil =>
      cases ends.tail with
      | sourceEnd =>
          rfl
      | lineFeed more noReturn =>
          rfl
      | returnFeed more =>
          rfl
  | cons c rest =>
      rw [body] at bodyEnds
      simp [endsLine, bodyEnds.terminatorLength?_append, bne]

end Line

/-! ### The first line of a text -/

/-- A text starts with this content and this terminator and goes on with more. -/
inductive FirstLine : List Char → List Char → List Char → List Char → Prop where
  | lineFeed (content more : List Char) :
      '\n' ∉ content →
      content.getLast? ≠ some '\r' →
      FirstLine (content ++ '\n' :: more) content ['\n'] more
  | returnFeed (content more : List Char) :
      '\n' ∉ content →
      FirstLine (content ++ '\r' :: '\n' :: more) content ['\r', '\n'] more
  | unterminated (content : List Char) :
      '\n' ∉ content →
      content ≠ [] →
      FirstLine content content [] []

/-- Every text that is not empty starts with a line. -/
theorem exists_firstLine
    {text : List Char}
    (unread : text ≠ []) :
    ∃ content terminator more, FirstLine text content terminator more := by
  by_cases feeds : '\n' ∈ text
  · obtain ⟨before, more, rfl, noFeed⟩ := List.eq_append_cons_of_mem feeds
    by_cases returns : before.getLast? = some '\r'
    · obtain ⟨content, rfl⟩ := List.getLast?_eq_some_iff.mp returns
      have contentNoFeed : '\n' ∉ content :=
        fun member => noFeed (List.mem_append_left _ member)
      refine ⟨content, ['\r', '\n'], more, ?_⟩
      rw [List.append_assoc]
      exact .returnFeed content more contentNoFeed
    · exact ⟨before, ['\n'], more, .lineFeed before more noFeed returns⟩
  · exact ⟨text, [], [], .unterminated text feeds unread⟩

theorem cutLines_lineFeed
    {content : List Char}
    (noFeed : '\n' ∉ content)
    (more : List Char) :
    cutLines (content ++ '\n' :: more) =
      (content ++ ['\n']) :: cutLines more := by
  induction content with
  | nil =>
      simp [cutLines]
  | cons c rest inductionHypothesis =>
      have different : c ≠ '\n' :=
        fun isFeed => noFeed (isFeed ▸ List.mem_cons_self)
      have restNoFeed : '\n' ∉ rest :=
        fun member => noFeed (List.mem_cons_of_mem c member)
      simp [cutLines, different, inductionHypothesis restNoFeed]

theorem cutLines_unterminated
    {content : List Char}
    (noFeed : '\n' ∉ content)
    (present : content ≠ []) :
    cutLines content = [content] := by
  induction content with
  | nil =>
      exact absurd rfl present
  | cons c rest inductionHypothesis =>
      have different : c ≠ '\n' :=
        fun isFeed => noFeed (isFeed ▸ List.mem_cons_self)
      have restNoFeed : '\n' ∉ rest :=
        fun member => noFeed (List.mem_cons_of_mem c member)
      cases rest with
      | nil =>
          simp [cutLines, different]
      | cons next others =>
          rw [cutLines, if_neg different,
            inductionHypothesis restNoFeed (List.cons_ne_nil next others)]

namespace FirstLine

variable {text content terminator more : List Char}

theorem text_eq
    (first : FirstLine text content terminator more) :
    text = content ++ (terminator ++ more) := by
  cases first <;> simp

theorem endsBefore
    (first : FirstLine text content terminator more) :
    EndsBefore content (terminator ++ more) := by
  cases first with
  | lineFeed _ _ noFeed noReturn =>
      exact ⟨noFeed, .lineFeed more noReturn⟩
  | returnFeed _ _ noFeed =>
      exact ⟨noFeed, .returnFeed more⟩
  | unterminated _ noFeed _ =>
      exact ⟨noFeed, .sourceEnd⟩

theorem length_lt
    (first : FirstLine text content terminator more) :
    more.length < text.length := by
  cases first with
  | lineFeed =>
      simp
      omega
  | returnFeed =>
      simp
      omega
  | unterminated _ _ present =>
      simpa [List.length_pos_iff] using present

/-- The text is cut behind its first line. -/
theorem cutLines_eq
    (first : FirstLine text content terminator more) :
    cutLines text = (content ++ terminator) :: cutLines more := by
  cases first with
  | lineFeed _ _ noFeed _ =>
      exact cutLines_lineFeed noFeed more
  | returnFeed _ _ noFeed =>
      have innerNoFeed : '\n' ∉ content ++ ['\r'] := by
        simpa using noFeed
      simpa using cutLines_lineFeed innerNoFeed more
  | unterminated _ noFeed present =>
      simpa [cutLines] using cutLines_unterminated noFeed present

theorem terminatorOf_append
    (first : FirstLine text content terminator more) :
    terminatorOf (content ++ terminator) = terminator := by
  cases first with
  | lineFeed _ _ noFeed noReturn =>
      have bare : ¬ ['\r', '\n'] <:+ content ++ ['\n'] := by
        rintro ⟨before, same⟩
        have shape : (before ++ ['\r']) ++ ['\n'] = content ++ ['\n'] := by
          simpa using same
        have contents := List.append_cancel_right shape
        exact noReturn (by simp [← contents])
      simp [terminatorOf, bare]
  | returnFeed =>
      simp [terminatorOf]
  | unterminated _ noFeed _ =>
      have noSuffix : ∀ before, ¬ before ++ ['\n'] <:+ text := by
        intro before found
        exact noFeed
          (found.subset (List.mem_append_right before List.mem_cons_self))
      have noReturnFeed : ¬ ['\r', '\n'] <:+ text := noSuffix ['\r']
      have noLineFeed : ¬ ['\n'] <:+ text := noSuffix []
      simp [terminatorOf, noReturnFeed, noLineFeed]

/-- The piece that is cut off falls apart into content and terminator. -/
theorem ofText_eq
    (first : FirstLine text content terminator more)
    (number offset : Nat) :
    Line.ofText number offset (content ++ terminator) =
      ⟨number, offset, content, terminator⟩ := by
  simp [Line.ofText, first.terminatorOf_append]

end FirstLine

/-- A text is either empty or a line in front of a shorter text. -/
@[elab_as_elim]
theorem firstLine_induction
    {motive : List Char → Prop}
    (nil : motive [])
    (line :
      ∀ {text content terminator more},
        FirstLine text content terminator more → motive more → motive text)
    (text : List Char) :
    motive text := by
  induction length : text.length using Nat.strongRecOn generalizing text with
  | ind length inductionHypothesis =>
      by_cases empty : text = []
      · exact empty ▸ nil
      · obtain ⟨content, terminator, more, first⟩ := exists_firstLine empty
        exact line first
          (inductionHypothesis more.length (length ▸ first.length_lt) more rfl)

end LayoutLexer
