import LayoutLexer.Proofs.BlockGrammar
import LayoutLexer.Proofs.Coverage
import LayoutLexer.Proofs.Moments

namespace LayoutLexer

/-!
# What a session has pushed, moment by moment

A watched parser remembers what it was pushed, so the tokens pushed so far are
part of every moment of its session. Two things are kept by all steps. The open
blocks are tallied: as many indents were pushed as there are dedents and open
blocks (`Session.Reaches.tallies`). And every lexical token and line end was
found in a line whose width was resolved, at a moment of the session
(`Session.accounted_pushedTokens`); all other tokens come from the widths of
lines and from the end of the source.
-/

/-! ### Pushed tokens -/

/-- The tokens that a watched parser was pushed. -/
def Watched.pushed (watch : Watched σ) : List Token :=
  watch.uses.filterMap fun
    | .push token => some token
    | .release => none

theorem Watched.pushed_of_uses
    {watch later : Watched σ}
    {tokens : List Token}
    (uses : later.uses = watch.uses ++ tokens.map .push) :
    later.pushed = watch.pushed ++ tokens := by
  simp [pushed, uses, List.filterMap_map]

theorem pushedTokens_eq
    (parser : Parser σ ω)
    (source : String) :
    pushedTokens parser source =
      (Session.run parser.watched source).parser.pushed :=
  rfl

namespace Session

section

variable {parser : Parser σ ω}
variable {progress next : Progress (Watched σ)}
variable {halt : Halt (Watched σ)}
variable {emissions : List Emission}
variable {token : Token}

/-- Emissions that are played to their end push their tokens. -/
theorem taken_of_play
    (played : play parser.watched emissions progress = .ok next) :
    parser.Takes progress.parser.state (pushedBy emissions) next.parser.state ∧
      next.parser.pushed = progress.parser.pushed ++ pushedBy emissions := by
  rcases play_cases parser.watched emissions progress with
    ⟨reached, same, taken⟩ | ⟨_, _, _, _, _, same, _⟩
  · rw [played] at same
    cases same
    obtain ⟨innerTaken, uses⟩ := taken.of_watched
    exact ⟨innerTaken, Watched.pushed_of_uses uses⟩
  · rw [played] at same
    cases same

theorem taken_of_deliver
    (delivered : deliver parser.watched progress token = .ok next) :
    parser.Takes progress.parser.state [token] next.parser.state ∧
      next.parser.pushed = progress.parser.pushed ++ [token] := by
  rw [← play_singleton_push] at delivered
  exact taken_of_play delivered

/-- A token that stops a session has been pushed. -/
theorem Stops.pushed_eq
    {earlier : Watched σ}
    (stops : Stops parser.watched earlier token halt) :
    halt.progress.parser.pushed = earlier.pushed ++ [token] := by
  apply Watched.pushed_of_uses
  cases stops with
  | accepted answer =>
      exact congrArg (·.2.uses) answer.symm
  | rejected answer =>
      exact congrArg (·.2.uses) answer.symm

theorem pushed_of_refused
    (refused : deliver parser.watched progress token = .error halt) :
    halt.progress.parser.pushed = progress.parser.pushed ++ [token] := by
  rcases deliver_cases parser.watched progress token with
    ⟨reached, same, _⟩ | ⟨_, same, stops⟩
  · rw [refused] at same
    cases same
  · rw [refused] at same
    cases same
    exact stops.pushed_eq

/-- Emissions that a session halts on push the first of their tokens. -/
theorem exists_pushed_of_halted
    (halted : play parser.watched emissions progress = .error halt) :
    ∃ tokens, tokens <+: pushedBy emissions ∧
      halt.progress.parser.pushed = progress.parser.pushed ++ tokens := by
  rcases play_cases parser.watched emissions progress with
    ⟨_, same, _⟩ | ⟨_, before, token, after, earlier, same, shape, taken, stops⟩
  · rw [halted] at same
    cases same
  · rw [halted] at same
    cases same
    refine ⟨before ++ [token], ⟨after, by simp [shape]⟩, ?_⟩
    rw [stops.pushed_eq, Watched.pushed_of_uses taken.of_watched.2,
      List.append_assoc]

/-- The rest of a source, read as one line. -/
def asLine (cursor : Cursor) : Line :=
  ⟨cursor.line, cursor.offset, cursor.rest, []⟩

theorem resolveWidth_asLine
    (parser : Parser σ ω)
    (cursor : Cursor)
    (indentation : Indentation)
    (progress : Progress σ) :
    resolveWidth parser cursor (blankRun cursor.rest) indentation progress =
      match indentation.resolve (blankRun cursor.rest) with
      | .error mismatch =>
          .error ⟨(asLine cursor).misfit mismatch, progress⟩
      | .ok (change, resolved) =>
          (play parser ((asLine cursor).layout change) progress).map
            (resolved, ·) := by
  have place : (asLine cursor).start.followedBy [] = cursor := by
    simp [asLine, Line.start, Cursor.followedBy]
  have resolves := resolveWidth_eq parser progress (asLine cursor) [] indentation
  rw [place] at resolves
  exact resolves

/-- A width that is resolved pushes its indents or dedents. -/
theorem exists_change_of_resolveWidth
    {cursor : Cursor}
    {indentation resolved : Indentation}
    (found :
      resolveWidth parser.watched cursor (blankRun cursor.rest) indentation
        progress = .ok (resolved, next)) :
    ∃ change,
      indentation.Resolves (blankRun cursor.rest) change resolved ∧
        parser.Takes progress.parser.state
          (pushedBy ((asLine cursor).layout change)) next.parser.state ∧
        next.parser.pushed =
          progress.parser.pushed ++ pushedBy ((asLine cursor).layout change) := by
  rw [resolveWidth_asLine] at found
  cases width : indentation.resolve (blankRun cursor.rest) with
  | error mismatch =>
      simp only [width] at found
      cases found
  | ok resolution =>
      obtain ⟨change, levels⟩ := resolution
      simp only [width] at found
      cases played : play parser.watched ((asLine cursor).layout change) progress with
      | error halt =>
          rw [played] at found
          cases found
      | ok reached =>
          rw [played] at found
          cases found
          exact ⟨change, Indentation.resolves_of_resolve width,
            taken_of_play played⟩

theorem isVisible_of_mem_layout
    {line : Line}
    {change : IndentChange}
    (member : token ∈ pushedBy (line.layout change)) :
    token.isVisible = false := by
  rcases Line.kind_of_mem_layout member with kind | kind
  · simp [Token.isVisible, kind, TokenKind.isLayout]
  · simp [Token.isVisible, kind, TokenKind.isLayout]

/-- A width that a session halts on pushes some indents or dedents. -/
theorem exists_pushed_of_resolveWidth
    {cursor : Cursor}
    {indentation : Indentation}
    (halted :
      resolveWidth parser.watched cursor (blankRun cursor.rest) indentation
        progress = .error halt) :
    ∃ tokens : List Token,
      (∀ token ∈ tokens, token.isVisible = false) ∧
        halt.progress.parser.pushed = progress.parser.pushed ++ tokens := by
  rw [resolveWidth_asLine] at halted
  cases width : indentation.resolve (blankRun cursor.rest) with
  | error mismatch =>
      simp only [width] at halted
      cases halted
      exact ⟨[], List.forall_mem_nil _, (List.append_nil _).symm⟩
  | ok resolution =>
      obtain ⟨change, levels⟩ := resolution
      simp only [width] at halted
      cases played : play parser.watched ((asLine cursor).layout change) progress with
      | error stopped =>
          rw [played] at halted
          cases halted
          obtain ⟨tokens, early, pushed⟩ := exists_pushed_of_halted played
          exact ⟨tokens,
            fun token member => isVisible_of_mem_layout (early.subset member),
            pushed⟩
      | ok reached =>
          rw [played] at halted
          cases halted

end

/-! ### Open blocks on the way -/

/-- As many indents were taken as dedents and open blocks. -/
structure Tallies
    (parser : Parser σ ω)
    (indentation : Indentation)
    (progress : Progress (Watched σ)) : Prop where
  taken :
    parser.Takes parser.initial progress.parser.pushed progress.parser.state
  depth :
    countKind .indent progress.parser.pushed =
      countKind .dedent progress.parser.pushed + indentation.depth

section

variable {parser : Parser σ ω}
variable {indentation resolved : Indentation}
variable {progress next : Progress (Watched σ)}

/-- A match is found by the rules of the language. -/
theorem isLayout_of_scan
    {text : List Char}
    {kind : TokenKind}
    {length : Nat}
    (scanned : scan text = .token kind length) :
    kind.isLayout = false := by
  cases text with
  | nil =>
      cases scanned
  | cons c rest =>
      rw [scan] at scanned
      split at scanned
      · cases scanned
      · split at scanned
        · cases scanned
        · split at scanned
          · cases scanned
          · split at scanned
            · rename_i found
              cases scanned
              exact isLayout_of_longestMatch found
            · cases scanned

/-- The width of a line is tallied by its indents or dedents. -/
theorem countKind_layout
    {change : IndentChange}
    {width : Nat}
    (resolves : indentation.Resolves width change resolved)
    (line : Line) :
    countKind .indent (pushedBy (line.layout change)) + indentation.depth =
      countKind .dedent (pushedBy (line.layout change)) + resolved.depth := by
  cases resolves with
  | unchanged same =>
      rfl
  | indent wider levels =>
      rw [Indentation.depth_of_opened levels]
      simp [Line.layout, countKind, Cursor.token, Nat.add_comm]
  | dedent narrower positive within levels top =>
      rw [Indentation.depth_of_closed within levels]
      simp [Line.layout, countKind, Cursor.token, List.countP_replicate, within]

theorem Tallies.enter
    {cursor : Cursor}
    (tallies : Tallies parser indentation progress)
    (found :
      resolveWidth parser.watched cursor (blankRun cursor.rest) indentation
        progress = .ok (resolved, next)) :
    Tallies parser resolved next := by
  obtain ⟨change, resolves, taken, pushed⟩ := exists_change_of_resolveWidth found
  have before := tallies.depth
  have layout := countKind_layout resolves (asLine cursor)
  refine ⟨?_, ?_⟩
  · rw [pushed]
    exact Parser.takes_append_iff.mpr ⟨_, tallies.taken, taken⟩
  · rw [pushed, countKind_append, countKind_append]
    omega

/-- A visible token neither opens nor closes a block. -/
theorem Tallies.deliver
    {token : Token}
    (tallies : Tallies parser indentation progress)
    (visible : token.isVisible = true)
    (delivered : deliver parser.watched progress token = .ok next) :
    Tallies parser indentation next := by
  obtain ⟨taken, pushed⟩ := taken_of_deliver delivered
  have none :
      ∀ kind, kind = .indent ∨ kind = .dedent → countKind kind [token] = 0 := by
    intro kind marks
    have different : token.kind ≠ kind := by
      intro same
      rcases marks with isIndent | isDedent
      · simp [Token.isVisible, same, isIndent, TokenKind.isLayout] at visible
      · simp [Token.isVisible, same, isDedent, TokenKind.isLayout] at visible
    simp [countKind, different]
  refine ⟨?_, ?_⟩
  · rw [pushed]
    exact Parser.takes_append_iff.mpr ⟨_, tallies.taken, taken⟩
  · rw [pushed, countKind_append, countKind_append, none .indent (.inl rfl),
      none .dedent (.inr rfl)]
    exact tallies.depth

/-- Every step keeps the tally. -/
theorem Tallies.step
    {moment later : Moment (Watched σ)}
    (tallies : Tallies parser moment.indentation moment.progress)
    (step : Step parser.watched moment later) :
    Tallies parser later.indentation later.progress := by
  cases step with
  | skip unread blank =>
      exact tallies
  | enter present found =>
      exact tallies.enter found
  | @token cursor indentation progress next kind length scanned delivered =>
      have visible : (cursor.token kind length).isVisible = true := by
        simp [Token.isVisible, Cursor.token, isLayout_of_scan scanned]
      exact tallies.deliver visible delivered
  | pass scanned =>
      exact tallies
  | lineEnd scanned delivered =>
      exact tallies.deliver rfl delivered
  | finished scanned =>
      exact tallies

/-- The tally holds at every moment of a session. -/
theorem Reaches.tallies
    {source : String}
    {moment : Moment (Watched σ)}
    (reaches : Reaches parser.watched source moment) :
    Tallies parser moment.indentation moment.progress := by
  induction reaches with
  | refl =>
      exact ⟨.nil parser.initial, rfl⟩
  | tail _ step inductionHypothesis =>
      exact inductionHypothesis.step step

end

/-! ### Where tokens are pushed -/

/-- A statement finds a token where it stands. -/
inductive Finds (cursor : Cursor) : Token → Prop where
  | token {kind : TokenKind} {length : Nat} :
      scan cursor.rest = .token kind length →
      Finds cursor (cursor.token kind length)
  | lineEnd {length : Nat} :
      scan cursor.rest = .lineEnd length →
      Finds cursor (cursor.token .newline length)

/-- Behind some tokens, a session finds a token in a line with these open blocks. -/
def FindsBehind
    (parser : Parser σ ω)
    (source : String)
    (before : List Token)
    (token : Token)
    (indentation : Indentation) :
    Prop :=
  ∃ cursor progress,
    Reaches parser.watched source (.statement cursor indentation progress) ∧
      progress.parser.pushed = before ∧
      Finds cursor token

/-- Each visible one of some tokens was found in a line. -/
def Accounted (parser : Parser σ ω) (source : String) (tokens : List Token) : Prop :=
  ∀ before token after,
    tokens = before ++ token :: after →
    token.isVisible = true →
      ∃ indentation, FindsBehind parser source before token indentation

namespace Accounted

variable {parser : Parser σ ω}
variable {source : String}
variable {tokens : List Token}

theorem nil : Accounted parser source [] := by
  intro before token after shape
  simp at shape

theorem append
    {more : List Token}
    (accounted : Accounted parser source tokens)
    (found :
      ∀ before token after,
        more = before ++ token :: after →
        token.isVisible = true →
          ∃ indentation,
            FindsBehind parser source (tokens ++ before) token indentation) :
    Accounted parser source (tokens ++ more) := by
  intro before token after shape visible
  rcases List.append_eq_append_iff.mp shape with
    ⟨between, isBefore, isMore⟩ | ⟨between, isTokens, isAfter⟩
  · rw [isBefore]
    exact found between token after isMore visible
  · cases between with
    | nil =>
        have isBefore : tokens = before := by simpa using isTokens
        have foundFirst := found [] token after isAfter.symm visible
        rwa [List.append_nil, isBefore] at foundFirst
    | cons first between =>
        obtain ⟨isFirst, _⟩ := List.cons.inj isAfter
        exact accounted before token between (isFirst ▸ isTokens) visible

theorem append_hidden
    {more : List Token}
    (accounted : Accounted parser source tokens)
    (hidden : ∀ token ∈ more, token.isVisible = false) :
    Accounted parser source (tokens ++ more) := by
  refine accounted.append ?_
  intro before token after shape visible
  have member : token ∈ more := by simp [shape]
  rw [hidden token member] at visible
  cases visible

theorem concat
    {token : Token}
    {indentation : Indentation}
    (accounted : Accounted parser source tokens)
    (found : FindsBehind parser source tokens token indentation) :
    Accounted parser source (tokens ++ [token]) := by
  refine accounted.append ?_
  intro before other after shape _
  obtain ⟨isBefore, isOther⟩ : before = [] ∧ other = token := by
    cases before with
    | nil =>
        exact ⟨rfl, (List.cons.inj shape).1.symm⟩
    | cons first before =>
        simp at shape
  rw [isBefore, isOther, List.append_nil]
  exact ⟨indentation, found⟩

end Accounted

section

variable {parser : Parser σ ω}
variable {source : String}
variable {moment : Moment (Watched σ)}

/-- At every moment of a session, what it has pushed is accounted for. -/
theorem Reaches.accounted
    (reaches : Reaches parser.watched source moment) :
    Accounted parser source moment.progress.parser.pushed := by
  induction reaches with
  | refl =>
      exact .nil
  | tail reachesBefore step inductionHypothesis =>
      cases step with
      | skip unread blank =>
          exact inductionHypothesis
      | enter present found =>
          obtain ⟨change, _, _, pushed⟩ := exists_change_of_resolveWidth found
          rw [Moment.progress, pushed]
          exact inductionHypothesis.append_hidden
            fun token member => isVisible_of_mem_layout member
      | token scanned delivered =>
          rw [Moment.progress, (taken_of_deliver delivered).2]
          exact inductionHypothesis.concat
            ⟨_, _, reachesBefore, rfl, .token scanned⟩
      | pass scanned =>
          exact inductionHypothesis
      | lineEnd scanned delivered =>
          rw [Moment.progress, (taken_of_deliver delivered).2]
          exact inductionHypothesis.concat
            ⟨_, _, reachesBefore, rfl, .lineEnd scanned⟩
      | finished scanned =>
          exact inductionHypothesis

/-- How far a session has come, whichever way it ended. -/
def reachedBy : Except (Halt σ) (Progress σ) → Progress σ
  | .error halt => halt.progress
  | .ok progress => progress

/-- What is pushed at the last moment of the lines is accounted for, too. -/
theorem Reaches.accounted_of_ends
    {result : Except (Halt (Watched σ)) (Cursor × Indentation × Progress (Watched σ))}
    (reaches : Reaches parser.watched source moment)
    (ends : Ends parser.watched moment result) :
    Accounted parser source (reachedBy (result.map (·.2.2))).parser.pushed := by
  have soFar := reaches.accounted
  cases ends with
  | complete atEnd =>
      exact soFar
  | layout present halted =>
      obtain ⟨tokens, hidden, pushed⟩ := exists_pushed_of_resolveWidth halted
      rw [Except.map, reachedBy, pushed]
      exact soFar.append_hidden hidden
  | token scanned refused =>
      rw [Except.map, reachedBy, pushed_of_refused refused]
      exact soFar.concat ⟨_, _, reaches, rfl, .token scanned⟩
  | lineEnd scanned refused =>
      rw [Except.map, reachedBy, pushed_of_refused refused]
      exact soFar.concat ⟨_, _, reaches, rfl, .lineEnd scanned⟩
  | unmatched scanned =>
      exact soFar

theorem pushed_finish
    (parser : Parser σ ω)
    (progress : Progress (Watched σ))
    (token : Token) :
    (reachedBy (finish parser.watched progress token)).parser.pushed =
      progress.parser.pushed ++ [token] := by
  apply Watched.pushed_of_uses
  rw [finish, push]
  cases answer : parser.watched.push progress.parser token with
  | mk status watch =>
      have uses : watch.uses = progress.parser.uses ++ [.push token] :=
        congrArg (·.2.uses) answer.symm
      cases status with
      | needMore =>
          exact uses
      | accepted =>
          exact uses
      | rejected message =>
          exact uses

/-- The end of a session pushes dedents and the end of the input. -/
theorem exists_pushed_of_conclude
    (parser : Parser σ ω)
    (cursor : Cursor)
    (indentation : Indentation)
    (progress : Progress (Watched σ)) :
    ∃ tokens : List Token,
      (∀ token ∈ tokens, token.isVisible = false) ∧
        (reachedBy
          (conclude parser.watched cursor indentation progress)).parser.pushed =
          progress.parser.pushed ++ tokens := by
  rw [conclude]
  generalize indentation.drain.1 = closed
  obtain ⟨noted, isNoted⟩ :
      ∃ noted : Progress (Watched σ),
        noted =
          if 0 < closed then
            progress.record (.closing cursor.line closed)
          else
            progress :=
    ⟨_, rfl⟩
  have sameParser : noted.parser = progress.parser := by
    rw [isNoted]
    split <;> rfl
  have hidden :
      ∀ token ∈ List.replicate closed (cursor.token .dedent 0),
        token.isVisible = false := by
    intro token member
    rw [List.eq_of_mem_replicate member]
    rfl
  rw [← isNoted, ← play_replicate_push, ← sameParser]
  cases played :
      play parser.watched
        (List.replicate closed (.push (cursor.token .dedent 0))) noted with
  | error halt =>
      obtain ⟨tokens, early, pushed⟩ := exists_pushed_of_halted played
      rw [pushedBy_replicate_push] at early
      exact ⟨tokens, fun token member => hidden token (early.subset member),
        pushed⟩
  | ok reached =>
      obtain ⟨_, pushed⟩ := taken_of_play played
      rw [pushedBy_replicate_push] at pushed
      refine ⟨List.replicate closed (cursor.token .dedent 0) ++
        [cursor.token .eof 0], ?_, ?_⟩
      · intro token member
        rcases List.mem_append.mp member with isDedent | isEof
        · exact hidden token isDedent
        · rw [List.mem_singleton.mp isEof]
          rfl
      · dsimp only
        rw [pushed_finish, pushed, List.append_assoc]

/-- Every visible token that a session pushes is found in a line. -/
theorem accounted_pushedTokens
    (parser : Parser σ ω)
    (source : String) :
    Accounted parser source (pushedTokens parser source) := by
  obtain ⟨last, reaches, ends⟩ :
      ∃ last, Reaches parser.watched source last ∧
        Ends parser.watched last
          (lines parser.watched (.start source) .topLevel
            (.start parser.watched)) :=
    exists_ends_lines _ _ _
  have soFar := reaches.accounted_of_ends ends
  have released :
      pushedTokens parser source =
        (reachedBy
          ((drive parser.watched source).map Prod.snd)).parser.pushed := by
    rw [pushedTokens_eq, run]
    cases drive parser.watched source with
    | error halt =>
        simp [Parser.watched, Watched.pushed, Except.map, reachedBy]
    | ok completed =>
        simp [Parser.watched, Watched.pushed, Except.map, reachedBy]
  rw [released, drive]
  cases read :
      lines parser.watched (.start source) .topLevel (.start parser.watched) with
  | error halt =>
      rw [read] at soFar
      exact soFar
  | ok reached =>
      obtain ⟨cursor, indentation, progress⟩ := reached
      rw [read] at soFar
      obtain ⟨tokens, hidden, pushed⟩ :=
        exists_pushed_of_conclude parser cursor indentation progress
      have concluded := soFar.append_hidden hidden
      simp only [Except.map, reachedBy] at concluded
      rw [← pushed] at concluded
      dsimp only
      cases conclusion : conclude parser.watched cursor indentation progress with
      | error halt =>
          rw [conclusion] at concluded
          exact concluded
      | ok final =>
          rw [conclusion] at concluded
          exact concluded

end

end Session

end LayoutLexer
