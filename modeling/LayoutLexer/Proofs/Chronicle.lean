import LayoutLexer.Proofs.Pushes

namespace LayoutLexer

/-!
# The log of a session and the course of its source

A session enters into its log what its course notes, and every token that it
pushes. So its log is that of the course, up to the token at which the parser
stops it, and one more entry about how it ended (`exists_done`).

To see which tokens were pushed, the parser is watched. Watching changes no log.
-/

/-- The entry for a token that is pushed. -/
def Token.delivery (token : Token) : Event :=
  .deliver token.line token.kind token.text

/-- The entry for one thing that a session does. -/
def Emission.entry : Emission → Event
  | .note event => event
  | .push token => token.delivery

namespace Course

/-- A whole course, with the token that is left to push at its end. -/
def allEmissions (course : Course Token) : List Emission :=
  match course.result with
  | .error _ =>
      course.emissions
  | .ok last =>
      course.emissions ++ [.push last]

theorem allEmissions_after
    (course : Course Token)
    (emissions : List Emission) :
    (course.after emissions).allEmissions = emissions ++ course.allEmissions := by
  rw [allEmissions, allEmissions]
  cases ending : course.result <;> simp [after, ending]

end Course

namespace Session

/-! ### What is done between two states -/

/-- From one state of a session to a later one, this is what it did. -/
structure Did
    (earlier later : Progress (Watched σ))
    (done : List Emission) :
    Prop where
  log : later.log.toList = earlier.log.toList ++ done.map Emission.entry
  delivered : later.delivered = earlier.delivered + (pushedBy done).length
  pushed : later.parser.pushed = earlier.parser.pushed ++ pushedBy done

namespace Did

variable {first second third : Progress (Watched σ)}
variable {done more : List Emission}

theorem refl (progress : Progress (Watched σ)) : Did progress progress [] where
  log := (List.append_nil _).symm
  delivered := rfl
  pushed := (List.append_nil _).symm

theorem trans
    (earlier : Did first second done)
    (later : Did second third more) :
    Did first third (done ++ more) where
  log := by
    rw [later.log, earlier.log, List.append_assoc, List.map_append]
  delivered := by
    rw [later.delivered, earlier.delivered, Nat.add_assoc, pushedBy_append,
      List.length_append]
  pushed := by
    rw [later.pushed, earlier.pushed, List.append_assoc, pushedBy_append]

theorem record
    (progress : Progress (Watched σ))
    (event : Event) :
    Did progress (progress.record event) [.note event] where
  log := by simp [Progress.record, Emission.entry]
  delivered := rfl
  pushed := by simp [Progress.record]

end Did

section

variable (parser : Parser σ ω) (progress : Progress (Watched σ))

/-- A token is pushed, counted and logged, whatever the answer. -/
theorem did_push
    (token : Token) :
    Did progress (push parser.watched progress token).2 [.push token] where
  log := by simp [push, Emission.entry, Token.delivery]
  delivered := rfl
  pushed := Watched.pushed_of_uses rfl

theorem did_deliver
    (token : Token) :
    (∃ reached,
      deliver parser.watched progress token = .ok reached ∧
        Did progress reached [.push token]) ∨
    (∃ halt,
      deliver parser.watched progress token = .error halt ∧
        halt.error.category = .parser ∧
        Did progress halt.progress [.push token]) := by
  have did := did_push parser progress token
  rw [deliver]
  cases answer : push parser.watched progress token with
  | mk status next =>
      rw [answer] at did
      cases status with
      | needMore =>
          exact .inl ⟨next, rfl, did⟩
      | accepted =>
          exact .inr ⟨_, rfl, rfl, did⟩
      | rejected message =>
          exact .inr ⟨_, rfl, rfl, did⟩

theorem did_finish
    (token : Token) :
    (∃ reached,
      finish parser.watched progress token = .ok reached ∧
        Did progress reached [.push token]) ∨
    (∃ halt,
      finish parser.watched progress token = .error halt ∧
        Did progress halt.progress [.push token]) := by
  have did := did_push parser progress token
  rw [finish]
  cases answer : push parser.watched progress token with
  | mk status next =>
      rw [answer] at did
      cases status with
      | needMore =>
          exact .inr ⟨_, rfl, did⟩
      | accepted =>
          exact .inl ⟨next, rfl, did⟩
      | rejected message =>
          exact .inr ⟨_, rfl, did⟩

/-- Emissions are all done, or those up to a token that the parser stops at. -/
theorem did_play
    (emissions : List Emission) :
    (∃ reached,
      play parser.watched emissions progress = .ok reached ∧
        Did progress reached emissions) ∨
    (∃ halt before token after,
      play parser.watched emissions progress = .error halt ∧
        halt.error.category = .parser ∧
        emissions = before ++ .push token :: after ∧
        Did progress halt.progress (before ++ [.push token])) := by
  induction emissions generalizing progress with
  | nil =>
      exact .inl ⟨progress, rfl, .refl progress⟩
  | cons emission rest inductionHypothesis =>
      cases emission with
      | note event =>
          have noted := Did.record progress event
          rcases inductionHypothesis (progress.record event) with
              ⟨reached, played, did⟩ |
              ⟨halt, before, token, after, played, refused, shape, did⟩
          · exact .inl ⟨reached, played, noted.trans did⟩
          · refine .inr ⟨halt, .note event :: before, token, after, played, refused,
              ?_, noted.trans did⟩
            rw [shape, List.cons_append]
      | push token =>
          rw [play_push]
          rcases did_deliver parser progress token with
              ⟨next, delivered, pushed⟩ | ⟨halt, halted, refused, pushed⟩
          · rw [delivered]
            rcases inductionHypothesis next with
                ⟨reached, played, did⟩ |
                ⟨halt, before, later, after, played, refused, shape, did⟩
            · exact .inl ⟨reached, played, pushed.trans did⟩
            · refine .inr ⟨halt, .push token :: before, later, after, played, refused,
                ?_, pushed.trans did⟩
              rw [shape, List.cons_append]
          · rw [halted]
            exact .inr ⟨halt, [], token, rest, rfl, refused, rfl, pushed⟩

end

/-! ### Whole sessions -/

/-- Watching a parser changes no log. -/
theorem log_watched
    (parser : Parser σ ω)
    (source : String) :
    (run parser.watched source).log = (run parser source).log := by
  have start :
      Progress.start parser = (Progress.start parser.watched).unwatched := rfl
  rw [run, run, drive_eq, drive_eq, follow, follow, start, play_unwatched]
  cases play parser.watched (courseOf source).emissions
      (.start parser.watched) with
  | error halt =>
      rfl
  | ok reached =>
      cases (courseOf source).result with
      | error error =>
          rfl
      | ok eof =>
          simp only [unwatched, Except.bind, finish_unwatched]
          cases finish parser.watched reached eof with
          | error halt =>
              rfl
          | ok finished =>
              rfl

/-- Releasing a parser pushes nothing. -/
theorem pushed_release
    (parser : Parser σ ω)
    (watch : Watched σ) :
    (parser.watched.release watch).2.pushed = watch.pushed := by
  simp [Parser.watched, Watched.pushed]

/--
The last entry of a log. It counts the tokens, and says how many lines there were
or which error ended the session.
-/
def lastEntry (source : String) (tokens : Nat) : Except SessionError ω → Event
  | .ok _ =>
      .complete tokens (1 + source.toList.count '\n')
  | .error error =>
      .aborted error.category error.line tokens

section

variable {parser : Parser σ ω}
variable {source : String}
variable {done : List Emission}

theorem outcome_of_halted
    {halt : Halt (Watched σ)}
    (halted : drive parser.watched source = .error halt)
    (did : Did (.start parser.watched) halt.progress done) :
    (run parser source).result = .error halt.error ∧
      pushedTokens parser source = pushedBy done ∧
      (run parser source).log =
        done.map Emission.entry ++
          [.aborted halt.error.category halt.error.line (pushedBy done).length] := by
  have counted : halt.progress.delivered = (pushedBy done).length :=
    did.delivered.trans (Nat.zero_add _)
  have logged : halt.progress.log.toList = done.map Emission.entry :=
    did.log
  refine ⟨?_, ?_, ?_⟩
  · rw [← (run_watched parser source).1, run, halted]
  · rw [pushedTokens_eq, run, halted]
    exact (pushed_release parser halt.progress.parser).trans did.pushed
  · rw [← log_watched, run, halted]
    simp [Progress.record, logged, counted]

theorem outcome_of_completed
    {lines : Nat}
    {reached : Progress (Watched σ)}
    (completed : drive parser.watched source = .ok (lines, reached))
    (did : Did (.start parser.watched) reached done) :
    (∃ output, (run parser source).result = .ok output) ∧
      pushedTokens parser source = pushedBy done ∧
      (run parser source).log =
        done.map Emission.entry ++ [.complete (pushedBy done).length lines] := by
  have counted : reached.delivered = (pushedBy done).length :=
    did.delivered.trans (Nat.zero_add _)
  have logged : reached.log.toList = done.map Emission.entry :=
    did.log
  refine ⟨?_, ?_, ?_⟩
  · rw [← (run_watched parser source).1, run, completed]
    exact ⟨_, rfl⟩
  · rw [pushedTokens_eq, run, completed]
    exact (pushed_release parser reached.parser).trans did.pushed
  · rw [← log_watched, run, completed]
    simp [Progress.record, logged, counted]

end

/--
A session does a first part of what is on the course of its source, and logs it.
If it does not do all of it, the parser has stopped it behind a token.
-/
theorem exists_done
    (parser : Parser σ ω)
    (source : String) :
    ∃ done rest,
      (courseOf source).allEmissions = done ++ rest ∧
        pushedTokens parser source = pushedBy done ∧
        (run parser source).log =
          done.map Emission.entry ++
            [lastEntry source (pushedBy done).length (run parser source).result] ∧
        (rest ≠ [] →
          (∃ error,
            (run parser source).result = .error error ∧ error.category = .parser) ∧
          ∃ before token, done = before ++ [.push token]) := by
  have driven := drive_eq parser.watched source
  rw [follow] at driven
  rcases did_play parser (.start parser.watched) (courseOf source).emissions with
      ⟨reached, played, did⟩ |
      ⟨halt, before, token, after, played, refused, shape, did⟩
  · rw [played] at driven
    cases ending : (courseOf source).result with
    | error error =>
        simp only [ending] at driven
        obtain ⟨result, pushed, log⟩ := outcome_of_halted driven did
        refine ⟨(courseOf source).emissions, [], ?_, pushed, ?_, absurd rfl⟩
        · rw [Course.allEmissions, ending, List.append_nil]
        · rw [log, result, lastEntry]
    | ok eof =>
        have whole :
            (courseOf source).allEmissions =
              ((courseOf source).emissions ++ [.push eof]) ++ [] := by
          rw [Course.allEmissions, ending, List.append_nil]
        simp only [ending] at driven
        rcases did_finish parser reached eof with
            ⟨final, finished, pushedLast⟩ | ⟨halt, halted, pushedLast⟩
        · simp only [Except.bind, finished, Except.map] at driven
          obtain ⟨⟨output, result⟩, pushed, log⟩ :=
            outcome_of_completed driven (did.trans pushedLast)
          refine ⟨_, [], whole, pushed, ?_, absurd rfl⟩
          rw [log, result, lastEntry]
          rfl
        · simp only [Except.bind, halted, Except.map] at driven
          obtain ⟨result, pushed, log⟩ :=
            outcome_of_halted driven (did.trans pushedLast)
          refine ⟨_, [], whole, pushed, ?_, absurd rfl⟩
          rw [log, result, lastEntry]
  · rw [played] at driven
    obtain ⟨result, pushed, log⟩ := outcome_of_halted driven did
    obtain ⟨rest, whole⟩ :
        ∃ rest,
          (courseOf source).allEmissions = (before ++ [.push token]) ++ rest := by
      rw [Course.allEmissions]
      cases (courseOf source).result with
      | error error =>
          exact ⟨after, by simp [shape]⟩
      | ok eof =>
          exact ⟨after ++ [.push eof], by simp [shape]⟩
    refine ⟨before ++ [.push token], rest, whole, pushed, ?_, ?_⟩
    · rw [log, result, lastEntry]
    · intro _
      exact ⟨⟨halt.error, result, refused⟩, before, token, rfl⟩

end Session

end LayoutLexer
