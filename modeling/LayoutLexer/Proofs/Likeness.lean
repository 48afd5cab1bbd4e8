import LayoutLexer.Proofs.Displacement
import LayoutLexer.Proofs.WellBlocked
import Mathlib.Data.List.Forall2
import Mathlib.Order.Monotone.Basic

namespace LayoutLexer

/-!
# Sources that are alike

Some changes of a source leave its structure as it is: the tokens are found at
other places, or the lines are indented in another way. What may change is said
by a likeness, which relates tokens to tokens and errors to errors and translates
widths. Two sources are alike when their logical lines are, one by one.

Then their courses are alike (`Alike.courseOf`): the tokens pushed are related
one by one, whether or not an error ends them, and so are the errors. The tokens
of both sources are related (`Alike.lex`), and a parser that cannot tell related
tokens apart comes to the same result (`Alike.run`).
-/

/-! ### Widths -/

/-- The same mismatch, with other widths. -/
def IndentMismatch.mapWidths
    (mismatch : IndentMismatch)
    (translate : Nat → Nat) :
    IndentMismatch where
  width := translate mismatch.width
  levels := mismatch.levels.map translate

namespace Indentation

/-- The same blocks, with other widths. -/
def mapWidths (indentation : Indentation) (translate : Nat → Nat) : Indentation :=
  ⟨indentation.opened.map translate⟩

@[simp] theorem depth_mapWidths
    (indentation : Indentation)
    (translate : Nat → Nat) :
    (indentation.mapWidths translate).depth = indentation.depth := by
  simp [depth, mapWidths]

section

variable {translate : Nat → Nat}

theorem top_mapWidths
    (zero : translate 0 = 0)
    (indentation : Indentation) :
    (indentation.mapWidths translate).top = translate indentation.top := by
  obtain ⟨opened⟩ := indentation
  cases opened <;> simp [top, mapWidths, zero]

theorem levels_mapWidths
    (zero : translate 0 = 0)
    (indentation : Indentation) :
    (indentation.mapWidths translate).levels =
      indentation.levels.map translate := by
  simp [levels, mapWidths, zero]

/-- A width is found among others by its translation among theirs. -/
theorem idxOf?_mapWidths
    (increasing : StrictMono translate)
    (zero : translate 0 = 0)
    (opened : List Nat)
    (width : Nat) :
    (opened.map translate ++ [0]).idxOf? (translate width) =
      (opened ++ [0]).idxOf? width := by
  have translated :
      opened.map translate ++ [0] = (opened ++ [0]).map translate := by
    simp [zero]
  have found :
      (fun level => level == translate width) ∘ translate =
        fun level => level == width := by
    funext level
    simp [increasing.injective.eq_iff]
  rw [translated, List.idxOf?, List.findIdx?_map, found]
  rfl

/-- Only the order of widths decides what a line does to the open blocks. -/
theorem resolve_mapWidths
    (increasing : StrictMono translate)
    (zero : translate 0 = 0)
    (indentation : Indentation)
    (width : Nat) :
    (indentation.mapWidths translate).resolve (translate width) =
      match indentation.resolve width with
      | .error mismatch =>
          .error (mismatch.mapWidths translate)
      | .ok (change, resolved) =>
          .ok (change, resolved.mapWidths translate) := by
  rw [resolve, resolve]
  simp only [top_mapWidths zero, increasing.lt_iff_lt,
    increasing.injective.eq_iff, levels_mapWidths zero]
  by_cases wider : indentation.top < width
  · simp [wider, mapWidths]
  · by_cases same : width = indentation.top
    · simp [same]
    · have position := idxOf?_mapWidths increasing zero indentation.opened width
      simp only [wider, same, ↓reduceIte]
      rw [mapWidths, position]
      cases (indentation.opened ++ [0]).idxOf? width with
      | none =>
          rfl
      | some closed =>
          simp [mapWidths]

end

end Indentation

/-! ### Likeness -/

/--
What may differ between two sources. The order of widths is kept, and the top
level stays the top level.
-/
structure Likeness where
  tokens : Token → Token → Prop
  errors : SessionError → SessionError → Prop
  widths : Nat → Nat
  increasing : StrictMono widths
  topLevel : widths 0 = 0

/-- Both results are values or both are errors, and they are related. -/
inductive Results
    (errors : SessionError → SessionError → Prop)
    (values : α → α → Prop) :
    Except SessionError α → Except SessionError α → Prop where
  | ok {value other : α} :
      values value other →
      Results errors values (.ok value) (.ok other)
  | error {error other : SessionError} :
      errors error other →
      Results errors values (.error error) (.error other)

theorem Results.imp
    {errors weakerErrors : SessionError → SessionError → Prop}
    {values weakerValues : α → α → Prop}
    {result other : Except SessionError α}
    (results : Results errors values result other)
    (onErrors : ∀ error other, errors error other → weakerErrors error other)
    (onValues : ∀ value other, values value other → weakerValues value other) :
    Results weakerErrors weakerValues result other := by
  cases results with
  | ok related =>
      exact .ok (onValues _ _ related)
  | error related =>
      exact .error (onErrors _ _ related)

theorem Results.eq
    {result other : Except SessionError α}
    (results : Results (fun error other => other = error) Eq result other) :
    other = result := by
  cases results with
  | ok same =>
      rw [same]
  | error same =>
      rw [same]

/-- Two courses push related tokens and come to related results. -/
structure Course.Alike
    (like : Likeness)
    (values : α → α → Prop)
    (course other : Course α) : Prop where
  tokens : List.Forall₂ like.tokens course.tokens other.tokens
  result : Results like.errors values course.result other.result

/-- Two lines have related widths, tokens and errors. -/
structure Line.Alike (like : Likeness) (line other : Line) : Prop where
  width : other.width = like.widths line.width
  layout :
    ∀ kind, kind = .indent ∨ kind = .dedent →
      like.tokens (line.start.token kind line.width)
        (other.start.token kind other.width)
  lexed : List.Forall₂ like.tokens line.lexed.tokens other.lexed.tokens
  error : Option.Rel like.errors line.lexed.error? other.lexed.error?
  newline : List.Forall₂ like.tokens (pushedBy line.newline) (pushedBy other.newline)
  misfit :
    ∀ mismatch,
      like.errors (line.misfit mismatch)
        (other.misfit (mismatch.mapWidths like.widths))

/-- Two sources have logical lines that are alike, and related ends. -/
structure Alike (like : Likeness) (source other : String) : Prop where
  lines : List.Forall₂ (Line.Alike like) (logicalLines source) (logicalLines other)
  ending :
    ∀ kind,
      like.tokens ((sourceEnd source).token kind 0) ((sourceEnd other).token kind 0)

section

variable {like : Likeness}

theorem forall₂_replicate
    {related : α → β → Prop}
    {first : α}
    {second : β}
    (holds : related first second)
    (count : Nat) :
    List.Forall₂ related (List.replicate count first)
      (List.replicate count second) := by
  induction count with
  | zero =>
      exact .nil
  | succ count inductionHypothesis =>
      exact .cons holds inductionHypothesis

namespace Course.Alike

variable {values : α → α → Prop}
variable {others : β → β → Prop}

theorem after
    {course other : Course α}
    {first second : List Emission}
    (pushed : List.Forall₂ like.tokens (pushedBy first) (pushedBy second))
    (alike : course.Alike like values other) :
    (course.after first).Alike like values (other.after second) where
  tokens := by
    rw [tokens_after, tokens_after]
    exact List.rel_append pushed alike.tokens
  result := alike.result

/-- Courses that are alike stay so when they go on alike. -/
theorem andThen
    {course other : Course α}
    {next otherNext : α → Course β}
    (alike : course.Alike like values other)
    (goesOn :
      ∀ {value otherValue}, values value otherValue →
        (next value).Alike like others (otherNext otherValue)) :
    (course.andThen next).Alike like others (other.andThen otherNext) := by
  obtain ⟨emissions, result⟩ := course
  obtain ⟨otherEmissions, otherResult⟩ := other
  obtain ⟨tokens, results⟩ := alike
  dsimp only at results
  cases results with
  | ok related =>
      exact (goesOn related).after tokens
  | error related =>
      exact ⟨tokens, .error related⟩

variable {course other : Course Token}

/-- What is left to push at the end of a course is pushed alike. -/
theorem allTokens
    (alike : course.Alike like like.tokens other) :
    List.Forall₂ like.tokens course.allTokens other.allTokens := by
  obtain ⟨emissions, result⟩ := course
  obtain ⟨otherEmissions, otherResult⟩ := other
  obtain ⟨tokens, results⟩ := alike
  dsimp only at results
  cases results with
  | ok related =>
      exact List.rel_append tokens (.cons related .nil)
  | error =>
      exact tokens

theorem outcome
    (alike : course.Alike like like.tokens other) :
    Results like.errors (List.Forall₂ like.tokens) course.outcome other.outcome := by
  obtain ⟨emissions, result⟩ := course
  obtain ⟨otherEmissions, otherResult⟩ := other
  obtain ⟨tokens, results⟩ := alike
  dsimp only at results
  cases results with
  | ok related =>
      exact .ok (List.rel_append tokens (.cons related .nil))
  | error related =>
      exact .error related

end Course.Alike

namespace Line.Alike

variable {line other : Line}

/-- What a width does to the open blocks is pushed alike. -/
theorem pushedBy_layout
    (alike : line.Alike like other)
    (change : IndentChange) :
    List.Forall₂ like.tokens (pushedBy (line.layout change))
      (pushedBy (other.layout change)) := by
  cases change with
  | unchanged =>
      exact .nil
  | indent =>
      exact .cons (alike.layout .indent (.inl rfl)) .nil
  | dedent closed =>
      simp only [Line.layout, pushedBy_note, pushedBy_replicate_push]
      exact forall₂_replicate (alike.layout .dedent (.inr rfl)) closed

/-- Lines that are alike have courses that are, from corresponding blocks. -/
theorem course
    (alike : line.Alike like other)
    (indentation : Indentation) :
    (line.course indentation).Alike like
      (fun resolved otherResolved =>
        otherResolved = resolved.mapWidths like.widths)
      (other.course (indentation.mapWidths like.widths)) := by
  rw [Line.course, Line.course, alike.width,
    Indentation.resolve_mapWidths like.increasing like.topLevel]
  cases indentation.resolve line.width with
  | error mismatch =>
      exact ⟨.nil, .error (alike.misfit mismatch)⟩
  | ok resolution =>
      obtain ⟨change, resolved⟩ := resolution
      refine .after (alike.pushedBy_layout change) ?_
      have lexed := alike.lexed
      have newline := alike.newline
      have errors := alike.error
      rw [Line.statement, Line.statement]
      generalize line.lexed.error? = failure at errors ⊢
      generalize other.lexed.error? = otherFailure at errors ⊢
      cases errors with
      | none =>
          refine ⟨?_, .ok rfl⟩
          simpa [Course.tokens] using List.rel_append lexed newline
      | some related =>
          exact ⟨by simpa [Course.tokens] using lexed, .error related⟩

end Line.Alike

/-- Lines that are alike one by one are laid out alike. -/
theorem layOut_alike
    {lines others : List Line}
    (alike : List.Forall₂ (Line.Alike like) lines others)
    (indentation : Indentation) :
    (layOut lines indentation).Alike like
      (fun resolved otherResolved =>
        otherResolved = resolved.mapWidths like.widths)
      (layOut others (indentation.mapWidths like.widths)) := by
  induction alike generalizing indentation with
  | nil =>
      exact ⟨.nil, .ok rfl⟩
  | cons first _ inductionHypothesis =>
      refine (first.course indentation).andThen ?_
      intro resolved otherResolved translated
      rw [translated]
      exact inductionHypothesis resolved

namespace Alike

variable {source other : String}

/-- The open blocks are closed alike. -/
theorem closeBlocks
    (alike : Alike like source other)
    (indentation : Indentation) :
    (closeBlocks source indentation).Alike like like.tokens
      (LayoutLexer.closeBlocks other (indentation.mapWidths like.widths)) := by
  refine ⟨?_, .ok (alike.ending .eof)⟩
  rw [Course.tokens, Course.tokens, LayoutLexer.closeBlocks,
    LayoutLexer.closeBlocks, Indentation.depth_mapWidths]
  by_cases flat : indentation.depth = 0
  · simp [flat]
  · simp only [flat, ↓reduceIte, pushedBy_note, pushedBy_replicate_push]
    exact forall₂_replicate (alike.ending .dedent) indentation.depth

/-- Sources that are alike have courses that are. -/
theorem courseOf
    (alike : Alike like source other) :
    (courseOf source).Alike like like.tokens (LayoutLexer.courseOf other) := by
  refine (layOut_alike alike.lines .topLevel).andThen ?_
  intro final otherFinal translated
  rw [translated]
  exact alike.closeBlocks final

/-- Sources that are alike have related tokens, or related errors. -/
theorem lex
    (alike : Alike like source other) :
    Results like.errors (List.Forall₂ like.tokens) (lex source)
      (LayoutLexer.lex other) := by
  rw [LayoutLexer.lex, LayoutLexer.lex, (collect_eq source).2,
    (collect_eq other).2]
  exact alike.courseOf.outcome

end Alike

end

/-! ### Parsers that cannot tell -/

/--
What a parser makes of the tokens of a course and of the way it ends: the last
token, which is then pushed, or an error.
-/
def Parser.verdict
    (parser : Parser σ ω)
    (ending : Except SessionError Token) :
    σ → List Token → Except SessionError ω
  | state, [] =>
      match ending with
      | .error error =>
          .error error
      | .ok eof =>
          match parser.push state eof with
          | (.accepted, final) =>
              .ok (parser.release final).1
          | (.needMore, _) =>
              .error (.refusal eof Session.inputExhausted)
          | (.rejected message, _) =>
              .error (.refusal eof message)
  | state, token :: rest =>
      match parser.push state token with
      | (.needMore, next) =>
          parser.verdict ending next rest
      | (.accepted, _) =>
          .error (.refusal token Session.acceptedEarly)
      | (.rejected message, _) =>
          .error (.refusal token message)

open Session

/-- Playing emissions comes to the verdict on their tokens. -/
theorem verdict_pushedBy
    (parser : Parser σ ω)
    (ending : Except SessionError Token)
    (emissions : List Emission)
    (progress : Progress σ) :
    parser.verdict ending progress.parser (pushedBy emissions) =
      match play parser emissions progress with
      | .error halt =>
          .error halt.error
      | .ok reached =>
          parser.verdict ending reached.parser [] := by
  induction emissions generalizing progress with
  | nil =>
      rfl
  | cons emission rest inductionHypothesis =>
      cases emission with
      | note event =>
          exact inductionHypothesis (progress.record event)
      | push token =>
          rw [pushedBy_push, Parser.verdict, play_push, deliver, push]
          cases answer : parser.push progress.parser token with
          | mk status state =>
              cases status with
              | needMore =>
                  exact inductionHypothesis ⟨state, progress.delivered + 1, _⟩
              | accepted =>
                  rfl
              | rejected message =>
                  rfl

/-- The result of a session is the verdict of its parser on the course. -/
theorem run_result_eq_verdict
    (parser : Parser σ ω)
    (source : String) :
    (run parser source).result =
      parser.verdict (courseOf source).result parser.initial
        (courseOf source).tokens := by
  have played :=
    verdict_pushedBy parser (courseOf source).result (courseOf source).emissions
      (.start parser)
  rw [run, drive_eq, follow]
  refine Eq.trans ?_ played.symm
  cases play parser (courseOf source).emissions (.start parser) with
  | error halt =>
      rfl
  | ok reached =>
      cases (courseOf source).result with
      | error error =>
          rfl
      | ok eof =>
          dsimp only [Except.bind, Parser.verdict]
          rw [finish, push]
          cases answer : parser.push reached.parser eof with
          | mk status state =>
              cases status <;> rfl

/-- A parser answers related tokens in the same way, and is refused alike. -/
structure Parser.Confuses (parser : Parser σ ω) (like : Likeness) : Prop where
  push :
    ∀ {token other}, like.tokens token other →
      ∀ state, parser.push state other = parser.push state token
  refusal :
    ∀ {token other}, like.tokens token other →
      ∀ message,
        like.errors (.refusal token message) (.refusal other message)

section

variable {like : Likeness}
variable {source other : String}

/-- A parser that cannot tell tokens apart comes to the same verdict on them. -/
theorem Parser.Confuses.verdict
    {parser : Parser σ ω}
    {ending otherEnding : Except SessionError Token}
    {tokens others : List Token}
    (confuses : parser.Confuses like)
    (related : List.Forall₂ like.tokens tokens others)
    (endings : Results like.errors like.tokens ending otherEnding)
    (state : σ) :
    Results like.errors Eq (parser.verdict ending state tokens)
      (parser.verdict otherEnding state others) := by
  induction related generalizing state with
  | nil =>
      cases endings with
      | error error =>
          exact .error error
      | @ok eof otherEof last =>
          have refused := confuses.refusal last
          dsimp only [Parser.verdict]
          rw [confuses.push last]
          cases answer : parser.push state eof with
          | mk status final =>
              cases status with
              | accepted =>
                  exact .ok rfl
              | needMore =>
                  exact .error (refused inputExhausted)
              | rejected message =>
                  exact .error (refused message)
  | @cons token other rest others first _ inductionHypothesis =>
      have refused := confuses.refusal first
      rw [Parser.verdict, Parser.verdict, confuses.push first]
      cases answer : parser.push state token with
      | mk status next =>
          cases status with
          | needMore =>
              exact inductionHypothesis next
          | accepted =>
              exact .error (refused acceptedEarly)
          | rejected message =>
              exact .error (refused message)

/-- On sources that are alike, a parser that cannot tell has related results. -/
theorem Alike.run
    {parser : Parser σ ω}
    (alike : Alike like source other)
    (confuses : parser.Confuses like) :
    Results like.errors Eq (run parser source).result
      (Session.run parser other).result := by
  obtain ⟨tokens, result⟩ := alike.courseOf
  rw [run_result_eq_verdict, run_result_eq_verdict]
  exact confuses.verdict tokens result parser.initial

/-! ### The checker -/

open Blocks

/-- The checker looks at the kind and the line of a token, and at nothing else. -/
theorem Blocks.push_eq_of_kind_of_line
    {token other : Token}
    (kind : other.kind = token.kind)
    (line : other.line = token.line)
    (checker : Checker) :
    parser.push checker other = parser.push checker token := by
  simp only [parser, Checker.step, kind, line]

/-- Sources that are alike are checked alike if kinds and lines are the same. -/
theorem Alike.check
    (alike : Alike like source other)
    (sameKind : ∀ {token other}, like.tokens token other → other.kind = token.kind)
    (sameLine : ∀ {token other}, like.tokens token other → other.line = token.line)
    (refusal :
      ∀ {token other}, like.tokens token other →
        ∀ message,
          like.errors (.refusal token message) (.refusal other message)) :
    Results like.errors Eq (check source) (LayoutLexer.check other) :=
  alike.run {
    push := fun related checker =>
      push_eq_of_kind_of_line (sameKind related) (sameLine related) checker
    refusal := refusal
  }

/-- Whether and how the checker goes on depends on the kind of a token alone. -/
theorem Blocks.Checker.Advances.of_kind
    {checker next : Checker}
    {token other : Token}
    (advances : checker.Advances token next)
    (kind : other.kind = token.kind) :
    checker.Advances other next := by
  have opens : openParens [token] = openParens [other] := by
    simp [openParens, countKind, kind]
  have closes : closeParens [token] = closeParens [other] := by
    simp [closeParens, countKind, kind]
  cases advances with
  | indent isIndent announced =>
      exact .indent (kind.trans isIndent) announced
  | dedent isDedent noBlock inside =>
      exact .dedent (kind.trans isDedent) noBlock inside
  | newline isNewline present closed =>
      exact .newline (kind.trans isNewline) present closed
  | lexical isLexical noBlock balanced =>
      have same : checker.behind [token] = checker.behind [other] := by
        simp [Checker.behind, opens, closes, kind]
      rw [same]
      rw [opens, closes] at balanced
      exact .lexical (kind ▸ isLexical) noBlock balanced

theorem Blocks.Checker.Accepts.of_kind
    {checker final : Checker}
    {token other : Token}
    (accepts : checker.Accepts token final)
    (kind : other.kind = token.kind) :
    checker.Accepts other final := by
  cases accepts with
  | betweenLines isEof empty noBlock outside =>
      exact .betweenLines (kind.trans isEof) empty noBlock outside
  | inLine isEof present closed noneAnnounced outside =>
      exact .inLine (kind.trans isEof) present closed noneAnnounced outside

/-- Tokens of the same kinds give the checker the same summary. -/
theorem Blocks.output?_of_kinds
    {tokens others : List Token}
    {checker : Checker}
    {summary : Summary}
    (kinds : List.Forall₂ (fun token other => other.kind = token.kind) tokens others)
    (found : parser.output? checker tokens = some summary) :
    parser.output? checker others = some summary := by
  induction kinds generalizing checker with
  | nil =>
      exact found
  | cons kind _ inductionHypothesis =>
      rw [output?_cons_iff] at found ⊢
      rcases found with ⟨next, advances, rest⟩ | ⟨final, accepts, same⟩
      · exact .inl ⟨next, advances.of_kind kind, inductionHypothesis rest⟩
      · exact .inr ⟨final, accepts.of_kind kind, same⟩

/-- Sources that are alike have the same summary if kinds are the same. -/
theorem Alike.check_eq_ok_iff
    (alike : Alike like source other)
    (sameKind : ∀ {token other}, like.tokens token other → other.kind = token.kind)
    (summary : Summary) :
    LayoutLexer.check other = .ok summary ↔ LayoutLexer.check source = .ok summary := by
  have kinds :
      List.Forall₂ (fun token other => other.kind = token.kind) (stream source)
        (stream other) :=
    alike.courseOf.allTokens.imp fun _ _ related => sameKind related
  rw [LayoutLexer.check_eq_ok_iff, LayoutLexer.check_eq_ok_iff]
  constructor
  · have flipped := kinds.flip
    exact output?_of_kinds (flipped.imp fun _ _ same => same.symm)
  · exact output?_of_kinds kinds

end

/-! ### Changes that are functions -/

/-- The likeness of things to what two functions make of them. -/
def Likeness.ofMaps
    (onToken : Token → Token)
    (onError : SessionError → SessionError) :
    Likeness where
  tokens token other := other = onToken token
  errors error other := other = onError error
  widths := id
  increasing := strictMono_id
  topLevel := rfl

theorem forall₂_eq_map_iff
    {change : α → β}
    {items : List α}
    {others : List β} :
    List.Forall₂ (fun item other => other = change item) items others ↔
      others = items.map change := by
  constructor
  · intro related
    induction related with
    | nil =>
        rfl
    | cons first _ inductionHypothesis =>
        rw [first, inductionHypothesis]
        rfl
  · rintro rfl
    exact List.forall₂_map_right_iff.mpr (List.forall₂_same.mpr fun _ _ => rfl)

section

variable {onToken : Token → Token}
variable {onError : SessionError → SessionError}
variable {source other : String}

theorem Results.eq_map
    {change : α → α}
    {result changed : Except SessionError α}
    (results :
      Results (fun error other => other = onError error)
        (fun value other => other = change value) result changed) :
    changed = (result.mapError onError).map change := by
  cases results with
  | ok isChanged =>
      rw [isChanged]
      rfl
  | error isChanged =>
      rw [isChanged]
      rfl

/-- The tokens or the error of the other source are what the functions make. -/
theorem Alike.lex_eq
    (alike : Alike (.ofMaps onToken onError) source other) :
    LayoutLexer.lex other =
      ((LayoutLexer.lex source).mapError onError).map (List.map onToken) :=
  (alike.lex.imp (fun _ _ => id) fun _ _ => forall₂_eq_map_iff.mp).eq_map

/-- The summary is the same, or the error is what the function makes. -/
theorem Alike.check_eq
    (alike : Alike (.ofMaps onToken onError) source other)
    (sameKind : ∀ token, (onToken token).kind = token.kind)
    (sameLine : ∀ token, (onToken token).line = token.line)
    (refusal :
      ∀ token message,
        SessionError.refusal (onToken token) message =
          onError (.refusal token message)) :
    LayoutLexer.check other = (LayoutLexer.check source).mapError onError := by
  have results :=
    alike.check (fun related => related ▸ sameKind _)
      (fun related => related ▸ sameLine _)
      (fun related message => related ▸ refusal _ message)
  have changed := (results.imp (fun _ _ => id) fun _ _ same => same.symm).eq_map
  rw [changed]
  cases (LayoutLexer.check source).mapError onError <;> rfl

/--
A line that is found further on is alike if the functions move what is found in
its content; its terminator is compared apart.
-/
theorem Line.alike_of_movedBy
    {line moved : Line}
    {displacement : Displacement}
    (start : moved.start = line.start.movedBy displacement)
    (tokens :
      ∀ token count length,
        token.kind ≠ .newline →
        token.span = (line.start.advance count).spanOf length →
          onToken token = token.movedBy displacement)
    (errors :
      ∀ error count length,
        error.span = (line.start.advance count).spanOf length →
          onError error = error.movedBy displacement)
    (newline : pushedBy moved.newline = (pushedBy line.newline).map onToken) :
    line.Alike (.ofMaps onToken onError) moved := by
  have content : moved.content = line.content :=
    congrArg Cursor.rest start
  have width : moved.width = line.width := by
    rw [Line.width, Line.width, content]
  have lexed : moved.lexed = line.lexed.movedBy displacement := by
    rw [Line.lexed, start, lexemes_movedBy]
    rfl
  have atStart : line.start.advance 0 = line.start :=
    Cursor.advance_zero line.start
  exact {
    width
    layout := by
      intro kind isLayout
      have notNewline : kind ≠ .newline := by
        rcases isLayout with rfl | rfl <;> exact TokenKind.noConfusion
      have place :
          (line.start.token kind line.width).span =
            (line.start.advance 0).spanOf line.width :=
        atStart.symm ▸ rfl
      rw [width, start, Cursor.token_movedBy]
      exact (tokens _ 0 line.width notNewline place).symm
    lexed := by
      apply forall₂_eq_map_iff.mpr
      rw [lexed]
      apply List.map_congr_left
      intro token member
      obtain ⟨count, kind, length, isToken, _⟩ := exists_match_of_mem_lexemes member
      have notNewline : token.kind ≠ .newline :=
        TokenKind.ne_of_lexical (isLayout_of_mem_lexemes member) rfl
      exact (tokens token count length notNewline (isToken ▸ rfl)).symm
    error := by
      rw [lexed, Lexed.movedBy]
      cases failed : line.lexed.error? with
      | none =>
          exact .none
      | some error =>
          obtain ⟨count, c, rest, _, isError⟩ :=
            exists_character_of_lexemes_error failed
          exact .some (errors error count 1 (isError ▸ rfl)).symm
    newline := forall₂_eq_map_iff.mpr newline
    misfit := by
      intro mismatch
      have place :
          (line.misfit mismatch).span =
            (line.start.advance 0).spanOf line.width :=
        atStart.symm ▸ rfl
      have number : moved.number = line.number + displacement.lines :=
        congrArg Cursor.line start
      have levels : mismatch.mapWidths id = mismatch := by
        simp [IndentMismatch.mapWidths]
      refine Eq.trans ?_ (errors _ 0 line.width place).symm
      rw [Likeness.ofMaps, levels, Line.misfit, Line.misfit, number, width, start,
        Cursor.spanOf_movedBy]
      rfl
  }

end

end LayoutLexer
