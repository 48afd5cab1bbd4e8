import LayoutLexer.Proofs.Stream

namespace LayoutLexer

/-!
# Parsers and the stream of a source

The stream of a source is what a session pushes to the recorder, which never
stops one. A session with any other parser pushes the same tokens in the same
order up to the first that is not answered by "need more"; that answer, or the
end of the stream, decides the result. The parser is released once, behind its
last token.

What a parser is used for can be seen by watching it. A watched parser answers
as it always does and remembers the uses made of it.
-/

/-- One use of a parser. -/
inductive Use where
  | push (token : Token)
  | release
  deriving Repr, DecidableEq

/-- The state of a parser, and the uses made of it so far. -/
structure Watched (σ : Type) where
  state : σ
  uses : List Use
  deriving Repr, DecidableEq

namespace Parser

/-- The same parser, remembering the uses made of it. -/
def watched (parser : Parser σ ω) : Parser (Watched σ) ω where
  initial := ⟨parser.initial, []⟩
  push watch token :=
    let answer := parser.push watch.state token
    (answer.1, ⟨answer.2, watch.uses ++ [.push token]⟩)
  release watch :=
    let released := parser.release watch.state
    (released.1, ⟨released.2, watch.uses ++ [.release]⟩)

/-- From one state to another, a parser answers every token by "need more". -/
inductive Takes (parser : Parser σ ω) : σ → List Token → σ → Prop where
  | nil (state : σ) :
      Takes parser state [] state
  | cons {state next final : σ} {token : Token} {rest : List Token} :
      parser.push state token = (.needMore, next) →
      Takes parser next rest final →
      Takes parser state (token :: rest) final

/--
How a parser and a stream settle a session. The stream has an ending of its own,
which counts when the parser takes all tokens. The tokens pushed, the state in
which the parser is left and the result of the session follow.
-/
inductive Settles
    (parser : Parser σ ω)
    (stream : List Token)
    (ending : Except SessionError (List Token)) :
    List Token → σ → Except SessionError ω → Prop where
  /-- The parser accepts a token that is not the last. -/
  | acceptedEarly
      {before after : List Token} {token : Token} {earlier state : σ} :
      stream = before ++ token :: after →
      parser.Takes parser.initial before earlier →
      parser.push earlier token = (.accepted, state) →
      token.kind ≠ .eof →
      Settles parser stream ending (before ++ [token]) state
        (.error (.parser token.line token.kind
          "parser accepted before end of input" token.span))
  /-- The parser rejects a token. -/
  | rejected
      {before after : List Token} {token : Token} {earlier state : σ}
      {message : String} :
      stream = before ++ token :: after →
      parser.Takes parser.initial before earlier →
      parser.push earlier token = (.rejected message, state) →
      Settles parser stream ending (before ++ [token]) state
        (.error (.parser token.line token.kind message token.span))
  /-- The parser accepts the end of the input. -/
  | accepted
      {before after : List Token} {token : Token} {earlier state : σ} :
      stream = before ++ token :: after →
      parser.Takes parser.initial before earlier →
      parser.push earlier token = (.accepted, state) →
      token.kind = .eof →
      Settles parser stream ending (before ++ [token]) state
        (.ok (parser.release state).1)
  /-- The parser takes all tokens, and an error ends them. -/
  | interrupted {state : σ} {error : SessionError} :
      parser.Takes parser.initial stream state →
      ending = .error error →
      Settles parser stream ending stream state (.error error)
  /-- The parser takes all tokens, the end of the input included. -/
  | exhausted {state : σ} {tokens : List Token} {eof : Token} :
      parser.Takes parser.initial stream state →
      ending = .ok tokens →
      stream.getLast? = some eof →
      eof.kind = .eof →
      Settles parser stream ending stream state
        (.error (.parser eof.line eof.kind "unexpected end of input" eof.span))

/-- The output of a parser that accepts the end of the input among tokens. -/
def output? (parser : Parser σ ω) : σ → List Token → Option ω
  | _, [] =>
      none
  | state, token :: rest =>
      match parser.push state token with
      | (.needMore, next) =>
          parser.output? next rest
      | (.accepted, final) =>
          if token.kind = .eof then
            some (parser.release final).1
          else
            none
      | (.rejected _, _) =>
          none

variable {parser : Parser σ ω}

/-- There is no output without the end of the input. -/
theorem eof_mem_of_output?
    {state : σ}
    {tokens : List Token}
    {output : ω}
    (found : parser.output? state tokens = some output) :
    ∃ token ∈ tokens, token.kind = .eof := by
  induction tokens generalizing state with
  | nil =>
      cases found
  | cons token rest inductionHypothesis =>
      rw [output?] at found
      split at found
      · obtain ⟨eof, member, last⟩ := inductionHypothesis found
        exact ⟨eof, List.mem_cons_of_mem token member, last⟩
      · by_cases last : token.kind = .eof
        · exact ⟨token, List.mem_cons_self, last⟩
        · rw [if_neg last] at found
          cases found
      · cases found

namespace Takes

/-- What a parser takes does not decide its output yet. -/
theorem output?_append
    {state reached : σ}
    {tokens : List Token}
    (taken : parser.Takes state tokens reached)
    (rest : List Token) :
    parser.output? state (tokens ++ rest) = parser.output? reached rest := by
  induction taken with
  | nil state =>
      rfl
  | cons answer _ inductionHypothesis =>
      rw [List.cons_append, output?, answer]
      exact inductionHypothesis

/-- One more token can be taken at the end. -/
theorem snoc
    {state middle final : σ}
    {tokens : List Token}
    {token : Token}
    (taken : parser.Takes state tokens middle)
    (needsMore : parser.push middle token = (.needMore, final)) :
    parser.Takes state (tokens ++ [token]) final := by
  induction taken with
  | nil state =>
      exact .cons needsMore (.nil final)
  | cons answer _ inductionHypothesis =>
      exact .cons answer (inductionHypothesis needsMore)

/-- A watched parser takes what the parser takes, and remembers it. -/
theorem of_watched
    {first last : Watched σ}
    {tokens : List Token}
    (taken : parser.watched.Takes first tokens last) :
    parser.Takes first.state tokens last.state ∧
      last.uses = first.uses ++ tokens.map .push := by
  induction taken with
  | nil state =>
      exact ⟨.nil state.state, by simp⟩
  | @cons state next final token rest answer _ inductionHypothesis =>
      simp only [watched, Prod.mk.injEq] at answer
      obtain ⟨needsMore, reached⟩ := answer
      obtain ⟨taken, uses⟩ := inductionHypothesis
      subst reached
      refine ⟨.cons (Prod.ext needsMore rfl) taken, ?_⟩
      simp [uses]

end Takes

namespace Settles

variable {stream pushed : List Token}
variable {ending : Except SessionError (List Token)}
variable {result : Except SessionError ω}

/-- The tokens pushed are a prefix of the stream. -/
theorem pushed_isPrefix
    {state : σ}
    (settled : parser.Settles stream ending pushed state result) :
    pushed <+: stream := by
  have before_isPrefix :
      ∀ {before after : List Token} {token : Token},
        stream = before ++ token :: after → before ++ [token] <+: stream := by
    intro before after token shape
    exact ⟨after, by simp [shape]⟩
  cases settled with
  | acceptedEarly shape =>
      exact before_isPrefix shape
  | rejected shape =>
      exact before_isPrefix shape
  | accepted shape =>
      exact before_isPrefix shape
  | interrupted =>
      exact List.prefix_refl stream
  | exhausted =>
      exact List.prefix_refl stream

/-- The output of a session is that of the parser on the stream. -/
theorem output?_eq
    {state : σ}
    (settled : parser.Settles stream ending pushed state result) :
    parser.output? parser.initial stream = result.toOption := by
  cases settled with
  | acceptedEarly shape taken answer notLast =>
      rw [shape, taken.output?_append, output?, answer]
      simp [notLast, Except.toOption]
  | rejected shape taken answer =>
      rw [shape, taken.output?_append, output?, answer]
      rfl
  | accepted shape taken answer last =>
      rw [shape, taken.output?_append, output?, answer]
      simp [last, Except.toOption]
  | interrupted taken _ =>
      have untilEnd := taken.output?_append []
      rwa [List.append_nil] at untilEnd
  | exhausted taken _ _ _ =>
      have untilEnd := taken.output?_append []
      rwa [List.append_nil] at untilEnd

/-- A watched parser settles a session as the parser does. -/
theorem of_watched
    {watch : Watched σ}
    (settled : parser.watched.Settles stream ending pushed watch result) :
    parser.Settles stream ending pushed watch.state result ∧
      watch.uses = pushed.map .push := by
  have stopped :
      ∀ {before : List Token} {token : Token} {earlier : Watched σ}
        {status : Status String},
        parser.watched.Takes parser.watched.initial before earlier →
        parser.watched.push earlier token = (status, watch) →
        parser.Takes parser.initial before earlier.state ∧
          parser.push earlier.state token = (status, watch.state) ∧
          watch.uses = (before ++ [token]).map .push := by
    intro before token earlier status taken answer
    simp only [watched, Prod.mk.injEq] at answer
    obtain ⟨sameStatus, reached⟩ := answer
    obtain ⟨innerTaken, uses⟩ := taken.of_watched
    subst reached
    refine ⟨innerTaken, Prod.ext sameStatus rfl, ?_⟩
    simp [uses, watched]
  cases settled with
  | acceptedEarly shape taken answer notLast =>
      obtain ⟨innerTaken, innerAnswer, uses⟩ := stopped taken answer
      exact ⟨.acceptedEarly shape innerTaken innerAnswer notLast, uses⟩
  | rejected shape taken answer =>
      obtain ⟨innerTaken, innerAnswer, uses⟩ := stopped taken answer
      exact ⟨.rejected shape innerTaken innerAnswer, uses⟩
  | accepted shape taken answer last =>
      obtain ⟨innerTaken, innerAnswer, uses⟩ := stopped taken answer
      exact ⟨.accepted shape innerTaken innerAnswer last, uses⟩
  | interrupted taken failed =>
      obtain ⟨innerTaken, uses⟩ := taken.of_watched
      exact ⟨.interrupted innerTaken failed, by simpa [watched] using uses⟩
  | exhausted taken completed last lastKind =>
      obtain ⟨innerTaken, uses⟩ := taken.of_watched
      exact ⟨.exhausted innerTaken completed last lastKind,
        by simpa [watched] using uses⟩

end Settles

end Parser

namespace Session

/-! ### Delivery -/

/-- A parser does not need more after a token, and the session halts there. -/
inductive Stops (parser : Parser σ ω) (earlier : σ) (token : Token) : Halt σ → Prop where
  | accepted {progress : Progress σ} :
      parser.push earlier token = (.accepted, progress.parser) →
      Stops parser earlier token
        ⟨.parser token.line token.kind
          "parser accepted before end of input" token.span, progress⟩
  | rejected {progress : Progress σ} {message : String} :
      parser.push earlier token = (.rejected message, progress.parser) →
      Stops parser earlier token
        ⟨.parser token.line token.kind message token.span, progress⟩

/-- A delivery goes on after "need more" and stops after anything else. -/
theorem deliver_cases
    (parser : Parser σ ω)
    (progress : Progress σ)
    (token : Token) :
    (∃ reached,
      deliver parser progress token = .ok reached ∧
        parser.push progress.parser token = (.needMore, reached.parser)) ∨
    (∃ halt,
      deliver parser progress token = .error halt ∧
        Stops parser progress.parser token halt) := by
  rw [deliver, push]
  cases answer : parser.push progress.parser token with
  | mk status state =>
      cases status with
      | needMore =>
          exact .inl ⟨_, rfl, rfl⟩
      | accepted =>
          exact .inr ⟨_, rfl, .accepted answer⟩
      | rejected message =>
          exact .inr ⟨_, rfl, .rejected answer⟩

/-- Emissions are played to their end or up to a token that stops them. -/
theorem play_cases
    (parser : Parser σ ω)
    (emissions : List Emission)
    (progress : Progress σ) :
    (∃ reached,
      play parser emissions progress = .ok reached ∧
        parser.Takes progress.parser (pushedBy emissions) reached.parser) ∨
    (∃ halt before token after earlier,
      play parser emissions progress = .error halt ∧
        pushedBy emissions = before ++ token :: after ∧
        parser.Takes progress.parser before earlier ∧
        Stops parser earlier token halt) := by
  induction emissions generalizing progress with
  | nil =>
      exact .inl ⟨progress, rfl, .nil progress.parser⟩
  | cons emission rest inductionHypothesis =>
      cases emission with
      | note event =>
          exact inductionHypothesis (progress.record event)
      | push token =>
          rw [play_push]
          rcases deliver_cases parser progress token with
              ⟨delivered, goesOn, needsMore⟩ | ⟨halt, halts, stops⟩
          · rw [goesOn]
            rcases inductionHypothesis delivered with
                ⟨reached, played, taken⟩ |
                ⟨halt, before, later, after, earlier, played, shape, taken,
                  stops⟩
            · exact .inl ⟨reached, played, .cons needsMore taken⟩
            · refine .inr ⟨halt, token :: before, later, after, earlier,
                played, ?_, .cons needsMore taken, stops⟩
              simp [shape]
          · rw [halts]
            exact .inr ⟨halt, [], token, pushedBy rest, progress.parser, rfl,
              rfl, .nil progress.parser, stops⟩

/-! ### Sessions -/

theorem run_of_error
    {parser : Parser σ ω}
    {source : String}
    {halt : Halt σ}
    (halted : drive parser source = .error halt) :
    (run parser source).result = .error halt.error ∧
      (run parser source).parser =
        (parser.release halt.progress.parser).2 := by
  rw [run, halted]
  exact ⟨rfl, rfl⟩

theorem run_of_ok
    {parser : Parser σ ω}
    {source : String}
    {lines : Nat}
    {progress : Progress σ}
    (completed : drive parser source = .ok (lines, progress)) :
    (run parser source).result = .ok (parser.release progress.parser).1 ∧
      (run parser source).parser = (parser.release progress.parser).2 := by
  rw [run, completed]
  exact ⟨rfl, rfl⟩

/-- The stream of a source goes on behind every token of its course. -/
theorem exists_stream_eq
    {source : String}
    {before after : List Token}
    {token : Token}
    (shape : (courseOf source).tokens = before ++ token :: after) :
    ∃ later, stream source = before ++ token :: later := by
  rw [stream, Course.allTokens]
  cases (courseOf source).result with
  | error error =>
      exact ⟨after, shape⟩
  | ok eof =>
      exact ⟨after ++ [eof], by simp [shape]⟩

/-- Every session is settled by its parser and the stream of its source. -/
theorem run_settles
    (parser : Parser σ ω)
    (source : String) :
    ∃ pushed state,
      parser.Settles (stream source) (lexByLines source) pushed state
          (run parser source).result ∧
        (run parser source).parser = (parser.release state).2 := by
  have driven := drive_eq parser source
  rw [follow] at driven
  rcases play_cases parser (courseOf source).emissions (.start parser) with
      ⟨reached, played, taken⟩ |
      ⟨halt, before, token, after, earlier, played, shape, taken, stops⟩
  · rw [played] at driven
    cases ending : (courseOf source).result with
    | error error =>
        simp only [ending] at driven
        obtain ⟨result, left⟩ := run_of_error driven
        have whole : stream source = (courseOf source).tokens := by
          rw [stream, Course.allTokens, ending]
        have failed : lexByLines source = .error error := by
          rw [lexByLines, ending]
        refine ⟨stream source, reached.parser, ?_, left⟩
        rw [result]
        exact .interrupted (whole ▸ taken) failed
    | ok eof =>
        simp only [ending] at driven
        have whole : stream source = (courseOf source).tokens ++ [eof] := by
          rw [stream, Course.allTokens, ending]
        have completed :
            lexByLines source = .ok ((courseOf source).tokens ++ [eof]) := by
          rw [lexByLines, ending]
        have last : eof.kind = .eof := by
          rw [eq_of_courseOf_result ending]
          rfl
        cases answer : parser.push reached.parser eof with
        | mk status state =>
            cases status with
            | needMore =>
                simp only [Except.bind, finish, push, answer] at driven
                obtain ⟨result, left⟩ := run_of_error driven
                refine ⟨stream source, state, ?_, left⟩
                rw [result]
                exact .exhausted (whole ▸ taken.snoc answer) completed
                  (by simp [whole]) last
            | accepted =>
                simp only [Except.bind, finish, push, answer] at driven
                obtain ⟨result, left⟩ := run_of_ok driven
                refine ⟨(courseOf source).tokens ++ [eof], state, ?_, left⟩
                rw [result]
                exact .accepted whole taken answer last
            | rejected message =>
                simp only [Except.bind, finish, push, answer] at driven
                obtain ⟨result, left⟩ := run_of_error driven
                refine ⟨(courseOf source).tokens ++ [eof], state, ?_, left⟩
                rw [result]
                exact .rejected whole taken answer
  · rw [played] at driven
    obtain ⟨result, left⟩ := run_of_error driven
    obtain ⟨later, whole⟩ := exists_stream_eq shape
    have notLast : token.kind ≠ .eof :=
      kind_ne_eof_of_mem_courseOf (by rw [Course.tokens, shape]; simp)
    refine ⟨before ++ [token], halt.progress.parser, ?_, left⟩
    rw [result]
    cases stops with
    | accepted answer =>
        exact .acceptedEarly whole taken answer notLast
    | rejected answer =>
        exact .rejected whole taken answer

/-- The result of a session is good when the parser has an output. -/
theorem run_eq_ok_iff
    (parser : Parser σ ω)
    (source : String)
    (output : ω) :
    (run parser source).result = .ok output ↔
      parser.output? parser.initial (stream source) = some output := by
  obtain ⟨pushed, state, settled, _⟩ := run_settles parser source
  rw [settled.output?_eq]
  cases (run parser source).result <;> simp [Except.toOption]

/-! ### Watching -/

/-- The progress of the parser that is watched. -/
def Progress.unwatched (progress : Progress (Watched σ)) : Progress σ :=
  { progress with parser := progress.parser.state }

/-- The same outcome, for the parser that is watched. -/
def unwatched :
    Except (Halt (Watched σ)) (Progress (Watched σ)) →
      Except (Halt σ) (Progress σ)
  | .error halt =>
      .error ⟨halt.error, halt.progress.unwatched⟩
  | .ok progress =>
      .ok progress.unwatched

section

variable (parser : Parser σ ω) (progress : Progress (Watched σ))

theorem deliver_unwatched
    (token : Token) :
    deliver parser progress.unwatched token =
      unwatched (deliver parser.watched progress token) := by
  rw [deliver, deliver, push, push]
  simp only [Parser.watched, Progress.unwatched]
  cases (parser.push progress.parser.state token).1 <;> rfl

theorem finish_unwatched
    (token : Token) :
    finish parser progress.unwatched token =
      unwatched (finish parser.watched progress token) := by
  rw [finish, finish, push, push]
  simp only [Parser.watched, Progress.unwatched]
  cases (parser.push progress.parser.state token).1 <;> rfl

theorem play_unwatched
    (emissions : List Emission) :
    play parser emissions progress.unwatched =
      unwatched (play parser.watched emissions progress) := by
  induction emissions generalizing progress with
  | nil =>
      rfl
  | cons emission rest inductionHypothesis =>
      cases emission with
      | note event =>
          exact inductionHypothesis (progress.record event)
      | push token =>
          rw [play_push, play_push, deliver_unwatched]
          cases deliver parser.watched progress token with
          | error halt =>
              rfl
          | ok delivered =>
              exact inductionHypothesis delivered

end

/-- Watching a parser changes neither the result nor what it is left in. -/
theorem run_watched
    (parser : Parser σ ω)
    (source : String) :
    (run parser.watched source).result = (run parser source).result ∧
      (run parser.watched source).parser.state = (run parser source).parser := by
  have start :
      Progress.start parser = (Progress.start parser.watched).unwatched := rfl
  rw [run, run, drive_eq, drive_eq, follow, follow, start, play_unwatched]
  cases play parser.watched (courseOf source).emissions
      (.start parser.watched) with
  | error halt =>
      exact ⟨rfl, rfl⟩
  | ok reached =>
      cases (courseOf source).result with
      | error error =>
          exact ⟨rfl, rfl⟩
      | ok eof =>
          simp only [unwatched, Except.bind, finish_unwatched]
          cases finish parser.watched reached eof with
          | error halt =>
              exact ⟨rfl, rfl⟩
          | ok finished =>
              exact ⟨rfl, rfl⟩

end Session

open Session

/-- What a session does with a parser that is watched. -/
theorem run_watched_settles
    (parser : Parser σ ω)
    (source : String) :
    ∃ pushed state,
      parser.Settles (stream source) (lexByLines source) pushed state
          (run parser source).result ∧
        (run parser source).parser = (parser.release state).2 ∧
        (run parser.watched source).parser.uses =
          pushed.map .push ++ [.release] := by
  obtain ⟨sameResult, sameState⟩ := run_watched parser source
  obtain ⟨pushed, watch, settled, left⟩ := run_settles parser.watched source
  obtain ⟨innerSettled, uses⟩ := settled.of_watched
  refine ⟨pushed, watch.state, sameResult ▸ innerSettled, ?_, ?_⟩
  · rw [← sameState, left]
    rfl
  · rw [left, ← uses]
    rfl

/-- The tokens that a session pushes to a parser. -/
def pushedTokens (parser : Parser σ ω) (source : String) : List Token :=
  (run parser.watched source).parser.uses.filterMap fun
    | .push token => some token
    | .release => none

/-- The tokens pushed to a parser are those that settle the session. -/
theorem pushedTokens_settles
    (parser : Parser σ ω)
    (source : String) :
    ∃ state,
      parser.Settles (stream source) (lexByLines source)
        (pushedTokens parser source) state (run parser source).result := by
  obtain ⟨pushed, state, settled, _, uses⟩ := run_watched_settles parser source
  have seen : pushedTokens parser source = pushed := by
    simp [pushedTokens, uses, List.filterMap_map]
  exact ⟨state, seen ▸ settled⟩

/-- Every parser is pushed a part of the stream, from its beginning on. -/
theorem pushedTokens_isPrefix
    (parser : Parser σ ω)
    (source : String) :
    pushedTokens parser source <+: stream source := by
  obtain ⟨state, settled⟩ := pushedTokens_settles parser source
  exact settled.pushed_isPrefix

/-- The error of a text that holds no token is a lexical one. -/
theorem category_of_lexemes_error
    {cursor : Cursor}
    {error : SessionError}
    (failed : (lexemes cursor).error? = some error) :
    error.category = .lexical := by
  fun_induction lexemes cursor with
  | case1 =>
      cases failed
  | case2 _ _ _ _ _ inductionHypothesis =>
      exact inductionHypothesis failed
  | case3 =>
      cases failed
  | case4 _ _ _ _ _ _ _ _ _ inductionHypothesis =>
      exact inductionHypothesis failed
  | case5 =>
      cases failed
      rfl

/-- An error of some lines is the error of one of them. -/
theorem exists_line_of_layOut_error
    {lines : List Line}
    {indentation : Indentation}
    {error : SessionError}
    (failed : (layOut lines indentation).result = .error error) :
    ∃ line ∈ lines,
      (∃ mismatch, error = line.misfit mismatch) ∨
        line.lexed.error? = some error := by
  induction lines generalizing indentation with
  | nil =>
      cases failed
  | cons line others inductionHypothesis =>
      rw [layOut, Course.andThen] at failed
      split at failed
      · rename_i found lineFailed
        cases failed
        refine ⟨line, List.mem_cons_self, ?_⟩
        rw [Line.course] at lineFailed
        split at lineFailed
        · rename_i mismatch _
          cases lineFailed
          exact .inl ⟨mismatch, rfl⟩
        · rw [Course.after, Line.statement] at lineFailed
          split at lineFailed
          · rename_i lexicalFailed
            cases lineFailed
            exact .inr lexicalFailed
          · cases lineFailed
      · obtain ⟨later, member, found⟩ := inductionHypothesis failed
        exact ⟨later, List.mem_cons_of_mem line member, found⟩

/-- The error that ends a stream is that of a logical line. -/
theorem exists_line_of_lexByLines_error
    {source : String}
    {error : SessionError}
    (failed : lexByLines source = .error error) :
    ∃ line ∈ logicalLines source,
      (∃ mismatch, error = line.misfit mismatch) ∨
        line.lexed.error? = some error := by
  rw [lexByLines] at failed
  split at failed
  · rename_i courseFailed
    cases failed
    rw [courseOf, Course.andThen] at courseFailed
    split at courseFailed
    · rename_i linesFailed
      cases courseFailed
      exact exists_line_of_layOut_error linesFailed
    · cases courseFailed
  · cases failed

/-- No parser takes part in the error that ends a stream. -/
theorem category_of_lexByLines_error
    {source : String}
    {error : SessionError}
    (failed : lexByLines source = .error error) :
    error.category = .lexical ∨ error.category = .indentation := by
  obtain ⟨line, _, ⟨mismatch, isMisfit⟩ | lexicalFailed⟩ :=
    exists_line_of_lexByLines_error failed
  · rw [isMisfit]
    exact .inr rfl
  · exact .inl (category_of_lexemes_error lexicalFailed)

/-- An error that is not the parser's ends the stream, whoever is pushed it. -/
theorem lex_eq_error_of_run
    {parser : Parser σ ω}
    {source : String}
    {error : SessionError}
    (failed : (run parser source).result = .error error)
    (notRefused : error.category ≠ .parser) :
    lex source = .error error := by
  obtain ⟨pushed, state, settled, _⟩ := run_settles parser source
  rw [failed] at settled
  rw [lex_eq_lexByLines]
  cases settled with
  | acceptedEarly =>
      exact absurd rfl notRefused
  | rejected =>
      exact absurd rfl notRefused
  | interrupted _ interrupts =>
      exact interrupts
  | exhausted =>
      exact absurd rfl notRefused

/--
A session is its parser folded over the stream of its source. The stream is what
a session with the recorder pushes, and its error, if any, is not the parser's.
Every parser is pushed tokens of the stream up to the first that it does not
answer by "need more", and is then released, once.
-/
theorem session_settled_by_stream
    (parser : Parser σ ω)
    (source : String) :
    (∃ pushed state,
      parser.Settles (collect source).parser.toList (collect source).result
          pushed state (run parser source).result ∧
        (run parser source).parser = (parser.release state).2 ∧
        (run parser.watched source).result = (run parser source).result ∧
        (run parser.watched source).parser =
          ⟨(run parser source).parser, pushed.map .push ++ [.release]⟩) ∧
    ∀ error, (collect source).result = .error error →
      error.category = .lexical ∨ error.category = .indentation := by
  obtain ⟨sameStream, sameEnding⟩ := collect_eq source
  rw [sameStream, sameEnding]
  constructor
  · obtain ⟨pushed, state, settled, left, uses⟩ :=
      run_watched_settles parser source
    obtain ⟨sameResult, sameState⟩ := run_watched parser source
    refine ⟨pushed, state, settled, left, sameResult, ?_⟩
    rw [← sameState, ← uses]
  · intro error failed
    exact category_of_lexByLines_error failed

end LayoutLexer
