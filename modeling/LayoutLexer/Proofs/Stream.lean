import LayoutLexer.Proofs.LineByLine

namespace LayoutLexer

/-!
# The tokens of a source

The recorder needs more until the end of the input, which it accepts, so it sees
all tokens of a course. What it has seen when a session ends is the stream of
the source, whether or not an error ended it, and the result of the session is
what lexing line by line gives (`collect_eq`).
-/

/-! ### Which tokens a course pushes -/

namespace Course

@[simp] theorem tokens_after
    (course : Course α)
    (emissions : List Emission) :
    (course.after emissions).tokens = pushedBy emissions ++ course.tokens := by
  simp [after, tokens]

/-- The tokens of a course, with the one that is left to push at its end. -/
def allTokens (course : Course Token) : List Token :=
  match course.result with
  | .error _ =>
      course.tokens
  | .ok last =>
      course.tokens ++ [last]

theorem allTokens_after
    (course : Course Token)
    (emissions : List Emission) :
    (course.after emissions).allTokens =
      pushedBy emissions ++ course.allTokens := by
  rw [allTokens, allTokens, tokens_after]
  cases ending : course.result <;> simp [after, ending]

theorem andThen_ok
    (emissions : List Emission)
    (value : α)
    (next : α → Course β) :
    (⟨emissions, .ok value⟩ : Course α).andThen next =
      (next value).after emissions :=
  rfl

theorem andThen_after
    (course : Course α)
    (emissions : List Emission)
    (next : α → Course β) :
    (course.after emissions).andThen next =
      (course.andThen next).after emissions := by
  cases ending : course.result <;> simp [andThen, after, ending]

theorem andThen_andThen
    (course : Course α)
    (next : α → Course β)
    (last : β → Course γ) :
    (course.andThen next).andThen last =
      course.andThen fun value => (next value).andThen last := by
  cases ending : course.result with
  | error error =>
      simp [andThen, ending]
  | ok value =>
      simp only [andThen.eq_1 course, ending, andThen_after]

/-- A token of two courses comes from one of them. -/
theorem mem_tokens_andThen
    {course : Course α}
    {next : α → Course β}
    {token : Token}
    (member : token ∈ (course.andThen next).tokens) :
    token ∈ course.tokens ∨
      ∃ value, course.result = .ok value ∧ token ∈ (next value).tokens := by
  rw [andThen] at member
  cases ending : course.result with
  | error error =>
      rw [ending] at member
      exact .inl member
  | ok value =>
      rw [ending, tokens_after] at member
      rcases List.mem_append.mp member with early | late
      · exact .inl early
      · exact .inr ⟨value, rfl, late⟩

end Course

theorem TokenKind.ne_of_lexical
    {kind other : TokenKind}
    (lexical : kind.isLayout = false)
    (layout : other.isLayout = true) :
    kind ≠ other := by
  intro same
  rw [same, layout] at lexical
  cases lexical

/-- The tokens between separators are no layout tokens. -/
theorem isLayout_of_mem_lexemes
    {cursor : Cursor}
    {token : Token}
    (member : token ∈ (lexemes cursor).tokens) :
    token.kind.isLayout = false := by
  fun_induction lexemes cursor with
  | case1 =>
      simp at member
  | case2 cursor c rest ahead blank inductionHypothesis =>
      exact inductionHypothesis member
  | case3 =>
      simp at member
  | case4 cursor c rest ahead noBlank noMark kind length found
      inductionHypothesis =>
      rcases List.mem_cons.mp member with isFirst | later
      · subst isFirst
        rw [← longestMatch_eq_firstLongest] at found
        exact isLayout_of_longestMatch found
      · exact inductionHypothesis later
  | case5 =>
      simp at member

namespace Line

/-- The tokens of the layout of a line are made of its leading run. -/
theorem eq_of_mem_layout
    {line : Line}
    {change : IndentChange}
    {token : Token}
    (member : token ∈ pushedBy (line.layout change)) :
    ∃ kind,
      (kind = .indent ∨ kind = .dedent) ∧
        token = line.start.token kind line.width := by
  cases change with
  | unchanged =>
      simp [layout] at member
  | indent =>
      simp only [layout, pushedBy_note, pushedBy_push, pushedBy_nil,
        List.mem_singleton] at member
      exact ⟨.indent, .inl rfl, member⟩
  | dedent closed =>
      simp only [layout, pushedBy_note, pushedBy_replicate_push] at member
      exact ⟨.dedent, .inr rfl, List.eq_of_mem_replicate member⟩

theorem kind_of_mem_layout
    {line : Line}
    {change : IndentChange}
    {token : Token}
    (member : token ∈ pushedBy (line.layout change)) :
    token.kind = .indent ∨ token.kind = .dedent := by
  obtain ⟨kind, isLayout, isToken⟩ := eq_of_mem_layout member
  rw [isToken]
  exact isLayout

/-- The token of the terminator of a line, if there is one. -/
theorem eq_of_mem_newline
    {line : Line}
    {token : Token}
    (member : token ∈ pushedBy line.newline) :
    line.terminator ≠ [] ∧
      token = line.ending.token .newline line.terminator.length := by
  rw [newline] at member
  split at member
  · simp at member
  · rename_i c rest terminator
    simp only [pushedBy_push, pushedBy_nil, List.mem_singleton] at member
    exact ⟨by simp [terminator], member⟩

theorem kind_of_mem_newline
    {line : Line}
    {token : Token}
    (member : token ∈ pushedBy line.newline) :
    token.kind = .newline := by
  rw [(eq_of_mem_newline member).2]
  rfl

/-- A token of a line comes from its width, its content or its terminator. -/
theorem mem_course
    {line : Line}
    {indentation : Indentation}
    {token : Token}
    (member : token ∈ (line.course indentation).tokens) :
    (∃ change, token ∈ pushedBy (line.layout change)) ∨
      token ∈ line.lexed.tokens ∨
      token ∈ pushedBy line.newline := by
  rw [course] at member
  split at member
  · simp [Course.tokens] at member
  · rename_i change resolved _
    rw [Course.tokens_after] at member
    rcases List.mem_append.mp member with early | late
    · exact .inl ⟨change, early⟩
    · right
      rw [statement] at late
      split at late
      · exact .inl (by simpa [Course.tokens] using late)
      · simpa [Course.tokens] using late

end Line

/-- A token of some lines is a token of one of them. -/
theorem exists_mem_of_mem_layOut
    {lines : List Line}
    {indentation : Indentation}
    {token : Token}
    (member : token ∈ (layOut lines indentation).tokens) :
    ∃ line ∈ lines, ∃ opened, token ∈ (line.course opened).tokens := by
  induction lines generalizing indentation with
  | nil =>
      simp [layOut, Course.tokens] at member
  | cons line others inductionHypothesis =>
      rcases Course.mem_tokens_andThen member with early | ⟨resolved, _, late⟩
      · exact ⟨line, List.mem_cons_self, indentation, early⟩
      · obtain ⟨later, laterMember, found⟩ := inductionHypothesis late
        exact ⟨later, List.mem_cons_of_mem line laterMember, found⟩

/-- The end of the input is not part of a course. -/
theorem kind_ne_eof_of_mem_courseOf
    {source : String}
    {token : Token}
    (member : token ∈ (courseOf source).tokens) :
    token.kind ≠ .eof := by
  rcases Course.mem_tokens_andThen member with inLines | ⟨indentation, _, closing⟩
  · obtain ⟨line, _, indentation, found⟩ := exists_mem_of_mem_layOut inLines
    rcases Line.mem_course found with ⟨change, laidOut⟩ | lexical | terminator
    · rcases Line.kind_of_mem_layout laidOut with kind | kind <;> simp [kind]
    · exact TokenKind.ne_of_lexical (isLayout_of_mem_lexemes lexical) rfl
    · simp [Line.kind_of_mem_newline terminator]
  · simp only [Course.tokens, closeBlocks] at closing
    split at closing
    · simp at closing
    · simp only [pushedBy_note, pushedBy_replicate_push] at closing
      rw [List.eq_of_mem_replicate closing]
      exact TokenKind.noConfusion

/-- A course that is not cut short leaves the end of the input to push. -/
theorem eq_of_courseOf_result
    {source : String}
    {eof : Token}
    (completed : (courseOf source).result = .ok eof) :
    eof = (sourceEnd source).token .eof 0 := by
  rw [courseOf, Course.andThen] at completed
  split at completed
  · cases completed
  · cases completed
    rfl

/-! ### Recording -/

open Session

namespace Recorder

theorem deliver_eq
    {token : Token}
    (goesOn : token.kind ≠ .eof)
    (progress : Progress (Array Token)) :
    deliver parser progress token =
      .ok {
        parser := progress.parser.push token
        delivered := progress.delivered + 1
        log := progress.log.push (.deliver token.line token.kind token.text)
      } := by
  simp [deliver, Session.push, parser, push, goesOn]

/-- The recorder takes every token before the end of the input. -/
theorem play_eq_ok
    {emissions : List Emission}
    (goesOn : ∀ token ∈ pushedBy emissions, token.kind ≠ .eof)
    (progress : Progress (Array Token)) :
    ∃ reached,
      play parser emissions progress = .ok reached ∧
        reached.parser.toList =
          progress.parser.toList ++ pushedBy emissions := by
  induction emissions generalizing progress with
  | nil =>
      exact ⟨progress, rfl, by simp⟩
  | cons emission rest inductionHypothesis =>
      cases emission with
      | note event =>
          exact inductionHypothesis goesOn (progress.record event)
      | push token =>
          have first : token.kind ≠ .eof :=
            goesOn token List.mem_cons_self
          have others : ∀ later ∈ pushedBy rest, later.kind ≠ .eof :=
            fun later member => goesOn later (List.mem_cons_of_mem token member)
          rw [play_push, deliver_eq first]
          obtain ⟨reached, played, seen⟩ := inductionHypothesis others _
          exact ⟨reached, played, by simp [seen]⟩

end Recorder

/-- The tokens that a source makes a session push, if the parser lets it. -/
def stream (source : String) : List Token :=
  (courseOf source).allTokens

/-- The recorder follows every course to its end. -/
theorem Recorder.follow_courseOf
    (source : String) :
    ∃ reached,
      reached.parser.toList = (courseOf source).tokens ∧
        follow parser (courseOf source) (.start parser) =
          match (courseOf source).result with
          | .error error =>
              .error ⟨error, reached⟩
          | .ok eof =>
              .ok (eof, reached) := by
  obtain ⟨reached, played, seen⟩ :=
    play_eq_ok (fun _ member => kind_ne_eof_of_mem_courseOf member)
      (.start parser)
  refine ⟨reached, ?_, ?_⟩
  · simpa [Progress.start, parser, Course.tokens] using seen
  · rw [follow, played]
    cases (courseOf source).result <;> rfl

/-- What a session with the recorder comes to. -/
theorem collect_eq
    (source : String) :
    (collect source).parser.toList = stream source ∧
      (collect source).result = lexByLines source := by
  obtain ⟨reached, seen, followed⟩ := Recorder.follow_courseOf source
  rw [collect, run, drive_eq, followed, stream, Course.allTokens, lexByLines]
  cases ending : (courseOf source).result with
  | error error =>
      exact ⟨seen, rfl⟩
  | ok eof =>
      have last : eof.kind = .eof := by
        rw [eq_of_courseOf_result ending]
        rfl
      simp [Except.bind, Except.map, finish, push, Recorder.parser,
        Recorder.push, last, seen]

/-- The tokens of a source are its stream, which the end of the input ends. -/
theorem exists_eof_of_lex
    {source : String}
    {tokens : List Token}
    (lexed : lex source = .ok tokens) :
    ∃ before eof,
      stream source = tokens ∧
        tokens = before ++ [eof] ∧
        eof.kind = .eof ∧
        ∀ token ∈ before, token.kind ≠ .eof := by
  rw [lex, (collect_eq source).2, lexByLines] at lexed
  split at lexed
  · cases lexed
  · rename_i eof ending
    cases lexed
    refine ⟨(courseOf source).tokens, eof, ?_, rfl, ?_, ?_⟩
    · rw [stream, Course.allTokens, ending]
    · rw [eq_of_courseOf_result ending]
      rfl
    · intro token member
      exact kind_ne_eof_of_mem_courseOf member

/-- A stream that reaches the end of the input is one of tokens. -/
theorem exists_lex_of_eof_mem
    {source : String}
    {token : Token}
    (member : token ∈ stream source)
    (last : token.kind = .eof) :
    ∃ tokens, lex source = .ok tokens := by
  rw [lex, (collect_eq source).2, lexByLines]
  rw [stream, Course.allTokens] at member
  cases ending : (courseOf source).result with
  | error error =>
      rw [ending] at member
      exact absurd last (kind_ne_eof_of_mem_courseOf member)
  | ok eof =>
      exact ⟨(courseOf source).tokens ++ [eof], rfl⟩

/--
The tokens of a source, or the error that ends them, are those found line by
line.
-/
theorem lex_eq_lexByLines
    (source : String) :
    lex source = lexByLines source :=
  (collect_eq source).2

end LayoutLexer
