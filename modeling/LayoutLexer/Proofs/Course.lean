import LayoutLexer.Recorder

namespace LayoutLexer

/-!
# Courses

What a source makes a session do does not depend on the parser: entries go into
the log and tokens go to the parser, in an order that the text alone decides.
Such an order, together with the way it ends, is a course. A parser only decides
how far into its course a session gets.

This module plays courses to parsers. Playing goes piece by piece
(`play_append`, `follow_after`), so a session can be compared with a course one
line at a time.
-/

/-- One thing a session does on its way through a source. -/
inductive Emission where
  /-- An entry is made in the log. -/
  | note (event : Event)
  /-- A token is pushed to the parser. -/
  | push (token : Token)
  deriving Repr, DecidableEq

/-- The token that is pushed, if one is. -/
def Emission.token? : Emission → Option Token
  | .note _ => none
  | .push token => some token

/-- The tokens among emissions, in their order. -/
def pushedBy (emissions : List Emission) : List Token :=
  emissions.filterMap Emission.token?

/-- What a piece of source makes a session do, and what comes of it. -/
structure Course (α : Type) where
  emissions : List Emission
  result : Except SessionError α

namespace Course

/-- The course that starts with some emissions and goes on as another one. -/
def after (course : Course α) (emissions : List Emission) : Course α :=
  { course with emissions := emissions ++ course.emissions }

/-- A course and what comes after it; an error ends both. -/
def andThen (course : Course α) (next : α → Course β) : Course β :=
  match course.result with
  | .error error =>
      ⟨course.emissions, .error error⟩
  | .ok value =>
      (next value).after course.emissions

/-- The tokens that a course pushes. -/
def tokens (course : Course α) : List Token :=
  pushedBy course.emissions

end Course

@[simp] theorem pushedBy_nil : pushedBy [] = [] :=
  rfl

@[simp] theorem pushedBy_note
    (event : Event)
    (emissions : List Emission) :
    pushedBy (.note event :: emissions) = pushedBy emissions :=
  rfl

@[simp] theorem pushedBy_push
    (token : Token)
    (emissions : List Emission) :
    pushedBy (.push token :: emissions) = token :: pushedBy emissions :=
  rfl

@[simp] theorem pushedBy_append
    (first second : List Emission) :
    pushedBy (first ++ second) = pushedBy first ++ pushedBy second := by
  simp [pushedBy]

@[simp] theorem pushedBy_map_push
    (tokens : List Token) :
    pushedBy (tokens.map .push) = tokens := by
  induction tokens with
  | nil =>
      rfl
  | cons token rest inductionHypothesis =>
      simp [inductionHypothesis]

@[simp] theorem pushedBy_replicate_push
    (count : Nat)
    (token : Token) :
    pushedBy (List.replicate count (.push token)) =
      List.replicate count token := by
  rw [← List.map_replicate, pushedBy_map_push]

namespace Session

/-- Make the log entries and push the tokens, until one is not wanted. -/
def play
    (parser : Parser σ ω) :
    List Emission → Progress σ → Except (Halt σ) (Progress σ)
  | [], progress =>
      .ok progress
  | .note event :: rest, progress =>
      play parser rest (progress.record event)
  | .push token :: rest, progress =>
      match deliver parser progress token with
      | .error halt =>
          .error halt
      | .ok progress =>
          play parser rest progress

/-- Play the emissions of a course, then take its result. -/
def follow
    (parser : Parser σ ω)
    (course : Course α)
    (progress : Progress σ) :
    Except (Halt σ) (α × Progress σ) :=
  match play parser course.emissions progress with
  | .error halt =>
      .error halt
  | .ok progress =>
      match course.result with
      | .error error =>
          .error ⟨error, progress⟩
      | .ok value =>
          .ok (value, progress)

section

variable (parser : Parser σ ω) (progress : Progress σ)

@[simp] theorem play_nil : play parser [] progress = .ok progress :=
  rfl

@[simp] theorem play_note
    (event : Event)
    (rest : List Emission) :
    play parser (.note event :: rest) progress =
      play parser rest (progress.record event) :=
  rfl

/-- One token is played by delivering it. -/
theorem play_push
    (token : Token)
    (rest : List Emission) :
    play parser (.push token :: rest) progress =
      (deliver parser progress token).bind (play parser rest) := by
  rw [play]
  cases deliver parser progress token <;> rfl

theorem play_singleton_push
    (token : Token) :
    play parser [.push token] progress = deliver parser progress token := by
  rw [play_push]
  cases deliver parser progress token <;> rfl

/-- Emissions are played one after the other. -/
theorem play_append
    (first second : List Emission) :
    play parser (first ++ second) progress =
      (play parser first progress).bind (play parser second) := by
  induction first generalizing progress with
  | nil =>
      rfl
  | cons emission rest inductionHypothesis =>
      cases emission with
      | note event =>
          simp [inductionHypothesis]
      | push token =>
          rw [List.cons_append, play_push, play_push]
          cases deliver parser progress token with
          | error halt =>
              rfl
          | ok delivered =>
              exact inductionHypothesis delivered

/-- Pushing the same token several times plays its repetition. -/
theorem play_replicate_push
    (token : Token)
    (count : Nat) :
    play parser (List.replicate count (.push token)) progress =
      deliverCopies parser token count progress := by
  induction count generalizing progress with
  | zero =>
      rfl
  | succ count inductionHypothesis =>
      rw [List.replicate_succ, play_push, deliverCopies]
      cases deliver parser progress token with
      | error halt =>
          rfl
      | ok delivered =>
          exact inductionHypothesis delivered

/-- A course that starts with some emissions is followed behind them. -/
theorem follow_after
    (course : Course α)
    (emissions : List Emission) :
    follow parser (course.after emissions) progress =
      (play parser emissions progress).bind (follow parser course) := by
  rw [follow, Course.after, play_append]
  cases play parser emissions progress <;> rfl

/-- One course is followed after the other. -/
theorem follow_andThen
    (course : Course α)
    (next : α → Course β) :
    follow parser (course.andThen next) progress =
      (follow parser course progress).bind fun reached =>
        follow parser (next reached.1) reached.2 := by
  rw [Course.andThen]
  cases ending : course.result with
  | error error =>
      simp only [follow, ending]
      cases play parser course.emissions progress <;> rfl
  | ok value =>
      simp only [follow_after, follow.eq_1 parser course, ending]
      cases play parser course.emissions progress <;> rfl

end

end Session

end LayoutLexer
