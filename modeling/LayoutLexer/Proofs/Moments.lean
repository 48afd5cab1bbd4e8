import LayoutLexer.Proofs.Protocol
import Mathlib.Logic.Relation

namespace LayoutLexer

namespace Session

/-!
# The moments of a session

Between two of its actions a session stands either before a line or in a line
whose width is resolved. It skips the line or enters it, finds a token, blanks or
a comment, or leaves the line behind its terminator or at the end of the source.
These are its steps, and the moments it gets to are those that steps lead to from
the beginning.

Reading all lines is going through such moments up to one where the session halts
or nothing is left (`exists_ends_lines`), so what every step keeps holds all the way.
-/

/-- Where a session stands, and with what. -/
inductive Moment (σ : Type) where
  /-- Before a line. -/
  | line (cursor : Cursor) (indentation : Indentation) (progress : Progress σ)
  /-- In a line whose width is resolved. -/
  | statement (cursor : Cursor) (indentation : Indentation) (progress : Progress σ)

namespace Moment

def cursor : Moment σ → Cursor
  | .line cursor _ _ | .statement cursor _ _ => cursor

def indentation : Moment σ → Indentation
  | .line _ indentation _ | .statement _ indentation _ => indentation

def progress : Moment σ → Progress σ
  | .line _ _ progress | .statement _ _ progress => progress

end Moment

/-- What a session does between two moments. -/
inductive Step (parser : Parser σ ω) : Moment σ → Moment σ → Prop where
  /-- A line without tokens is skipped. -/
  | skip {cursor : Cursor} {indentation : Indentation} {progress : Progress σ} :
      cursor.rest ≠ [] →
      endsLine (cursor.rest.drop (blankRun cursor.rest)) = true →
      Step parser (.line cursor indentation progress)
        (.line cursor.skipLine indentation progress)
  /-- The width of a line is resolved. -/
  | enter
      {cursor : Cursor} {indentation resolved : Indentation}
      {progress next : Progress σ} :
      endsLine (cursor.rest.drop (blankRun cursor.rest)) = false →
      resolveWidth parser cursor (blankRun cursor.rest) indentation progress =
        .ok (resolved, next) →
      Step parser (.line cursor indentation progress)
        (.statement (cursor.advance (blankRun cursor.rest)) resolved next)
  /-- A token is pushed. -/
  | token
      {cursor : Cursor} {indentation : Indentation} {progress next : Progress σ}
      {kind : TokenKind} {length : Nat} :
      scan cursor.rest = .token kind length →
      deliver parser progress (cursor.token kind length) = .ok next →
      Step parser (.statement cursor indentation progress)
        (.statement (cursor.advance length) indentation next)
  /-- Blanks or a comment are passed over. -/
  | pass
      {cursor : Cursor} {indentation : Indentation} {progress : Progress σ}
      {length : Nat} :
      scan cursor.rest = .blank length ∨ scan cursor.rest = .comment length →
      Step parser (.statement cursor indentation progress)
        (.statement (cursor.advance length) indentation progress)
  /-- The line end is pushed. -/
  | lineEnd
      {cursor : Cursor} {indentation : Indentation} {progress next : Progress σ}
      {length : Nat} :
      scan cursor.rest = .lineEnd length →
      deliver parser progress (cursor.token .newline length) = .ok next →
      Step parser (.statement cursor indentation progress)
        (.line (cursor.advance length).nextLine indentation next)
  /-- The line ends with the source. -/
  | finished
      {cursor : Cursor} {indentation : Indentation} {progress : Progress σ} :
      scan cursor.rest = .finished →
      Step parser (.statement cursor indentation progress)
        (.line cursor indentation progress)

/-- No step is left at a moment, and this has come of the lines. -/
inductive Ends (parser : Parser σ ω) :
    Moment σ → Except (Halt σ) (Cursor × Indentation × Progress σ) → Prop where
  | complete {cursor : Cursor} {indentation : Indentation} {progress : Progress σ} :
      cursor.rest = [] →
      Ends parser (.line cursor indentation progress)
        (.ok (cursor, indentation, progress))
  | layout
      {cursor : Cursor} {indentation : Indentation} {progress : Progress σ}
      {halt : Halt σ} :
      endsLine (cursor.rest.drop (blankRun cursor.rest)) = false →
      resolveWidth parser cursor (blankRun cursor.rest) indentation progress =
        .error halt →
      Ends parser (.line cursor indentation progress) (.error halt)
  | token
      {cursor : Cursor} {indentation : Indentation} {progress : Progress σ}
      {kind : TokenKind} {length : Nat} {halt : Halt σ} :
      scan cursor.rest = .token kind length →
      deliver parser progress (cursor.token kind length) = .error halt →
      Ends parser (.statement cursor indentation progress) (.error halt)
  | lineEnd
      {cursor : Cursor} {indentation : Indentation} {progress : Progress σ}
      {length : Nat} {halt : Halt σ} :
      scan cursor.rest = .lineEnd length →
      deliver parser progress (cursor.token .newline length) = .error halt →
      Ends parser (.statement cursor indentation progress) (.error halt)
  | unmatched
      {cursor : Cursor} {indentation : Indentation} {progress : Progress σ}
      {c : Char} :
      scan cursor.rest = .unmatched c →
      Ends parser (.statement cursor indentation progress)
        (.error ⟨.lexical c cursor.line (cursor.spanOf 1), progress⟩)

/-- The session on a source gets to a moment. -/
def Reaches (parser : Parser σ ω) (source : String) (moment : Moment σ) : Prop :=
  Relation.ReflTransGen (Step parser)
    (.line (.start source) .topLevel (.start parser)) moment

open Relation

section

variable {parser : Parser σ ω}

/-- Steps lead from a moment to another one, or to one where the session halts. -/
def LeadsTo
    (parser : Parser σ ω)
    (moment : Moment σ) :
    Except (Halt σ) (Moment σ) → Prop
  | .error halt =>
      ∃ last, ReflTransGen (Step parser) moment last ∧
        Ends parser last (.error halt)
  | .ok later =>
      ReflTransGen (Step parser) moment later

theorem LeadsTo.head
    {moment later : Moment σ}
    {outcome : Except (Halt σ) (Moment σ)}
    (step : Step parser moment later)
    (leads : LeadsTo parser later outcome) :
    LeadsTo parser moment outcome := by
  cases outcome with
  | error halt =>
      obtain ⟨last, steps, ends⟩ := leads
      exact ⟨last, .head step steps, ends⟩
  | ok reached =>
      exact ReflTransGen.head step leads

/-- A statement goes through its moments to the next line. -/
theorem leadsTo_statement
    (cursor : Cursor)
    (indentation : Indentation)
    (progress : Progress σ) :
    LeadsTo parser (.statement cursor indentation progress)
      ((statement parser cursor progress).map fun reached =>
        .line reached.1 indentation reached.2) := by
  fun_induction statement parser cursor progress with
  | case1 cursor progress kind length scanned halt refused =>
      exact ⟨_, .refl, .token scanned refused⟩
  | case2 cursor progress kind length scanned next taken inductionHypothesis =>
      exact inductionHypothesis.head (.token scanned taken)
  | case3 cursor progress length scanned inductionHypothesis =>
      exact inductionHypothesis.head (.pass (.inl scanned))
  | case4 cursor progress length scanned inductionHypothesis =>
      exact inductionHypothesis.head (.pass (.inr scanned))
  | case5 cursor progress length scanned halt refused =>
      exact ⟨_, .refl, .lineEnd scanned refused⟩
  | case6 cursor progress length scanned next taken =>
      exact ReflTransGen.single (.lineEnd scanned taken)
  | case7 cursor progress scanned =>
      exact ReflTransGen.single (.finished scanned)
  | case8 cursor progress c scanned =>
      exact ⟨_, .refl, .unmatched scanned⟩

/-- Reading one line goes through its moments to the next line. -/
theorem leadsTo_line
    {cursor : Cursor}
    (unread : cursor.rest ≠ [])
    (indentation : Indentation)
    (progress : Progress σ) :
    LeadsTo parser (.line cursor indentation progress)
      ((line parser cursor indentation progress).map fun reached =>
        .line reached.1 reached.2.1 reached.2.2) := by
  rw [line]
  by_cases blank : endsLine (cursor.rest.drop (blankRun cursor.rest)) = true
  · rw [if_pos blank]
    exact ReflTransGen.single (.skip unread blank)
  · rw [if_neg blank]
    rw [Bool.not_eq_true] at blank
    cases found :
        resolveWidth parser cursor (blankRun cursor.rest) indentation progress with
    | error halt =>
        exact ⟨_, .refl, .layout blank found⟩
    | ok resolution =>
        obtain ⟨resolved, laidOut⟩ := resolution
        have stated :
            LeadsTo parser
              (.statement (cursor.advance (blankRun cursor.rest)) resolved laidOut)
              _ :=
          leadsTo_statement (cursor.advance (blankRun cursor.rest)) resolved
            laidOut
        refine .head (.enter blank found) ?_
        dsimp only
        cases outcome :
            statement parser (cursor.advance (blankRun cursor.rest)) laidOut with
        | error halt =>
            rw [outcome] at stated
            exact stated
        | ok reached =>
            rw [outcome] at stated
            exact stated

/-- Reading all lines goes through moments up to one where no step is left. -/
theorem exists_ends_lines
    (cursor : Cursor)
    (indentation : Indentation)
    (progress : Progress σ) :
    ∃ last,
      ReflTransGen (Step parser) (.line cursor indentation progress) last ∧
        Ends parser last (lines parser cursor indentation progress) := by
  fun_induction lines parser cursor indentation progress with
  | case1 cursor indentation progress atEnd =>
      exact ⟨_, .refl, .complete atEnd⟩
  | case2 cursor indentation progress unread halt failed =>
      have read : LeadsTo parser _ _ := leadsTo_line unread indentation progress
      rw [failed] at read
      exact read
  | case3 cursor indentation progress unread next resolved reached completed
      inductionHypothesis =>
      have read : LeadsTo parser _ _ := leadsTo_line unread indentation progress
      rw [completed] at read
      obtain ⟨last, steps, ends⟩ := inductionHypothesis
      exact ⟨last, .trans read steps, ends⟩

end

end Session

end LayoutLexer
