import LayoutLexer.Proofs.Chronicle
import LayoutLexer.Proofs.LineTokens

namespace LayoutLexer

/-!
# The entries of a course

Besides the deliveries of its tokens, a course enters into the log that a line
opens a block, that a line closes blocks, and that the end of the input does.
Each of these announces the tokens right behind it, and no indent or dedent comes
without being announced. So an entry is in its place if those right before and
right behind it are the ones it should stand between (`Placed`); on a course, all
entries are (`inPlace_layOut`).
-/

namespace Event

/-- Whether a token is handed to the parser. -/
def isDelivery : Event → Bool
  | .deliver .. => true
  | _ => false

/-- Whether a dedent is handed to the parser. -/
def deliversDedent : Event → Bool
  | .deliver _ .dedent _ => true
  | _ => false

/-- Whether blocks are said to be closed. -/
def announcesDedents : Event → Bool
  | .dedent .. | .closing .. => true
  | _ => false

/-- Whether a session is said to have ended. -/
def isLast : Event → Bool
  | .complete .. | .aborted .. => true
  | _ => false

variable {event : Event}

theorem isDelivery_of_deliversDedent
    (dedent : event.deliversDedent = true) :
    event.isDelivery = true := by
  cases event with
  | deliver =>
      rfl
  | _ =>
      cases dedent

theorem isDelivery_of_announcesDedents
    (announces : event.announcesDedents = true) :
    event.isDelivery = false := by
  cases event with
  | dedent | closing =>
      rfl
  | _ =>
      cases announces

theorem isLast_of_announcesDedents
    (announces : event.announcesDedents = true) :
    event.isLast = false := by
  cases event with
  | dedent | closing =>
      rfl
  | _ =>
      cases announces

theorem isLast_of_isDelivery
    (delivery : event.isDelivery = true) :
    event.isLast = false := by
  cases event with
  | deliver =>
      rfl
  | _ =>
      cases delivery

theorem deliversDedent_of_isLast
    (last : event.isLast = true) :
    event.deliversDedent = false := by
  cases event with
  | complete | aborted =>
      rfl
  | _ =>
      cases last

/-- At the least severe level, all of a log is shown. -/
theorem atLevel_trace
    (log : List Event) :
    atLevel .trace log = log := by
  rw [atLevel, List.filter_eq_self]
  intro event _
  cases event <;> rfl

end Event

/--
The blocks that a group of dedents closes: the entry that announces them, the
entry for each dedent, and the one behind the group, if the session goes on.
-/
inductive ClosesBlocks (source : String) (closed : Nat) :
    Event → Event → Option Event → Prop where
  /-- A logical line closes blocks, and goes on with a token. -/
  | line {line : Line} {next? : Option Event} :
      line ∈ logicalLines source →
      (∀ next ∈ next?, next.isLast = true ∨
        ∃ kind text,
          kind.isLayout = false ∧ next = .deliver line.number kind text) →
      ClosesBlocks source closed
        (.dedent line.number (String.ofList line.leadingRun).utf8ByteSize closed)
        (.deliver line.number .dedent (String.ofList line.leadingRun)) next?
  /-- The end of the input closes blocks. -/
  | sourceEnd {next? : Option Event} :
      (∀ next ∈ next?, next.isLast = true ∨
        next = .deliver (1 + source.toList.count '\n') .eof "") →
      ClosesBlocks source closed
        (.closing (1 + source.toList.count '\n') closed)
        (.deliver (1 + source.toList.count '\n') .dedent "") next?

/-! ### Entries in their place -/

/-- An entry is in its place, given those before it and behind it. -/
inductive Placed (source : String) (before after : List Event) : Event → Prop where
  | token {line : Nat} {kind : TokenKind} {text : String} :
      kind ≠ .indent →
      kind ≠ .dedent →
      Placed source before after (.deliver line kind text)
  | indent {line : Nat} {text : String} :
      before.getLast? = some (.indent line text.utf8ByteSize) →
      Placed source before after (.deliver line .indent text)
  | dedent
      {earlier : List Event} {header dedent : Event} {next? : Option Event}
      {count closed : Nat} :
      before = earlier ++ header :: List.replicate count dedent →
      ClosesBlocks source closed header dedent next? →
      Placed source before after dedent
  | indentNote {line : Nat} {text : String} :
      after.head? = some (.deliver line .indent text) →
      Placed source before after (.indent line text.utf8ByteSize)
  | dedentNote {later : List Event} {header dedent : Event} {closed : Nat} :
      0 < closed →
      after = List.replicate closed dedent ++ later →
      ClosesBlocks source closed header dedent later.head? →
      Placed source before after header

namespace ClosesBlocks

variable {source : String}
variable {closed : Nat}
variable {header dedent last : Event}
variable {next? : Option Event}

theorem announcesDedents
    (closes : ClosesBlocks source closed header dedent next?) :
    header.announcesDedents = true := by
  cases closes <;> rfl

theorem deliversDedent
    (closes : ClosesBlocks source closed header dedent next?) :
    dedent.deliversDedent = true := by
  cases closes <;> rfl

/-- A session can end behind a group. -/
theorem ended
    (closes : ClosesBlocks source closed header dedent next?)
    (ends : last.isLast = true) :
    ClosesBlocks source closed header dedent (some last) := by
  have isLast : ∀ next ∈ some last, next.isLast = true := by
    intro next isNext
    rw [← Option.some.inj isNext]
    exact ends
  cases closes with
  | line member _ =>
      exact .line member fun next isNext => .inl (isLast next isNext)
  | sourceEnd _ =>
      exact .sourceEnd fun next isNext => .inl (isLast next isNext)

/-- Behind a group comes no other dedent. -/
theorem next_notDedent
    (closes : ClosesBlocks source closed header dedent next?)
    {next : Event}
    (isNext : next ∈ next?) :
    next.deliversDedent = false := by
  cases closes with
  | line _ goesOn =>
      rcases goesOn next isNext with ends | ⟨kind, text, lexical, isToken⟩
      · exact Event.deliversDedent_of_isLast ends
      · rw [isToken]
        cases kind with
        | dedent =>
            cases lexical
        | _ =>
            rfl
  | sourceEnd goesOn =>
      rcases goesOn next isNext with ends | isToken
      · exact Event.deliversDedent_of_isLast ends
      · rw [isToken]
        rfl

end ClosesBlocks

namespace Placed

variable {source : String}
variable {before after : List Event}
variable {event : Event}

/-- What stands further ahead does not matter. -/
theorem prepend
    (placed : Placed source before after event)
    (leading : List Event) :
    Placed source (leading ++ before) after event := by
  cases placed with
  | token noIndent noDedent =>
      exact .token noIndent noDedent
  | indent announced =>
      refine .indent ?_
      rw [List.getLast?_append, announced]
      rfl
  | @dedent earlier header _ _ count _ shape closes =>
      have longer :
          leading ++ before =
            (leading ++ earlier) ++ header :: List.replicate count event := by
        rw [shape, List.append_assoc]
      exact .dedent longer closes
  | indentNote followed =>
      exact .indentNote followed
  | dedentNote positive followed closes =>
      exact .dedentNote positive followed closes

/-- No entry in its place is a last one. -/
theorem cases_entry
    (placed : Placed source before after event) :
    event.isDelivery = true ∨ (∃ line width, event = .indent line width) ∨
      event.announcesDedents = true := by
  cases placed with
  | token =>
      exact .inl rfl
  | indent =>
      exact .inl rfl
  | dedent _ closes =>
      cases closes <;> exact .inl rfl
  | indentNote =>
      exact .inr (.inl ⟨_, _, rfl⟩)
  | dedentNote _ _ closes =>
      exact .inr (.inr closes.announcesDedents)

end Placed

/-- All entries are in their places, when some others stand before them. -/
def InPlace (source : String) (context entries : List Event) : Prop :=
  ∀ before event after,
    entries = before ++ event :: after →
      Placed source (context ++ before) after event

namespace InPlace

variable {source : String}
variable {context entries rest : List Event}

theorem nil : InPlace source context [] := by
  intro before event after shape
  simp at shape

theorem cons
    {event : Event}
    (placed : Placed source context rest event)
    (others : InPlace source (context ++ [event]) rest) :
    InPlace source context (event :: rest) := by
  intro before later after shape
  cases before with
  | nil =>
      cases shape
      simpa using placed
  | cons first between =>
      cases shape
      simpa using others between later after rfl

theorem prepend
    (inPlace : InPlace source context entries)
    (leading : List Event) :
    InPlace source (leading ++ context) entries := by
  intro before event after shape
  rw [List.append_assoc]
  exact (inPlace before event after shape).prepend leading

theorem behind
    (inPlace : InPlace source [] entries)
    (context : List Event) :
    InPlace source context entries := by
  have prepended := inPlace.prepend context
  rwa [List.append_nil] at prepended

/-- Tokens that neither open nor close a block stand anywhere. -/
theorem tokens
    {tokens : List Token}
    (plain : ∀ token ∈ tokens, token.kind ≠ .indent ∧ token.kind ≠ .dedent)
    (others : InPlace source [] rest) :
    InPlace source [] (tokens.map Token.delivery ++ rest) := by
  induction tokens with
  | nil =>
      exact others
  | cons token tokens inductionHypothesis =>
      obtain ⟨first, later⟩ := List.forall_mem_cons.mp plain
      exact .cons (.token first.1 first.2) ((inductionHypothesis later).behind _)

/-- The dedents of a group stand behind its announcement. -/
theorem dedents
    {header dedent : Event}
    {next? : Option Event}
    {closed : Nat}
    (closes : ClosesBlocks source closed header dedent next?)
    (others : InPlace source [] rest)
    (count earlier : Nat) :
    InPlace source (header :: List.replicate earlier dedent)
      (List.replicate count dedent ++ rest) := by
  induction count generalizing earlier with
  | zero =>
      exact others.behind _
  | succ count inductionHypothesis =>
      have longer :
          (header :: List.replicate earlier dedent) ++ [dedent] =
            header :: List.replicate (earlier + 1) dedent := by
        rw [List.replicate_succ', List.cons_append]
      refine .cons (.dedent (List.nil_append _).symm closes) ?_
      rw [longer]
      exact inductionHypothesis (earlier + 1)

/-- A group of dedents, announced. -/
theorem group
    {header dedent : Event}
    {closed : Nat}
    (positive : 0 < closed)
    (closes : ClosesBlocks source closed header dedent rest.head?)
    (others : InPlace source [] rest) :
    InPlace source [] (header :: (List.replicate closed dedent ++ rest)) :=
  .cons (.dedentNote positive rfl closes) (dedents closes others closed 0)

end InPlace

/-! ### The entries of a course -/

namespace Line

variable {source : String}
variable {line : Line}

theorem delivery_start
    (line : Line)
    (kind : TokenKind) :
    (line.start.token kind line.width).delivery =
      .deliver line.number kind (String.ofList line.leadingRun) := by
  rw [← line.take_width]
  rfl

/-- The width of a line is the length of the text of its indent or dedents. -/
theorem width_eq_utf8ByteSize
    (line : Line) :
    line.width = (String.ofList line.leadingRun).utf8ByteSize := by
  rw [utf8ByteSize_ofList, line.byteLength_leadingRun]

/-- A line whose width is resolved goes on with a token of its content. -/
theorem head?_lexed
    {rest : List Event}
    (logical : line.isLogical = true)
    (broken : line.lexed.error? ≠ none → rest = [])
    {next : Event}
    (isNext : next ∈ (line.lexed.tokens.map Token.delivery ++ rest).head?) :
    ∃ kind text,
      kind.isLayout = false ∧ next = .deliver line.number kind text := by
  cases tokens : line.lexed.tokens with
  | nil =>
      have noError : line.lexed.error? ≠ none := by
        intro complete
        exact lexed_tokens_ne_nil logical complete tokens
      rw [tokens, broken noError] at isNext
      cases isNext
  | cons token others =>
      have member : token ∈ line.lexed.tokens := by
        rw [tokens]
        exact List.mem_cons_self
      rw [tokens] at isNext
      have isFirst : token.delivery = next := Option.some.inj isNext
      have place : token.line = line.number := line_of_mem_lexemes member
      refine ⟨token.kind, token.text, isLayout_of_mem_lexemes member, ?_⟩
      rw [← isFirst, Token.delivery, place]

/-- What the width of a line contributes stands in its place. -/
theorem inPlace_layout
    {indentation resolved : Indentation}
    {change : IndentChange}
    {rest : List Event}
    (resolves : indentation.Resolves line.width change resolved)
    (member : line ∈ logicalLines source)
    (goesOn :
      ∀ next ∈ rest.head?, ∃ kind text,
        kind.isLayout = false ∧ next = .deliver line.number kind text)
    (others : InPlace source [] rest) :
    InPlace source [] ((line.layout change).map Emission.entry ++ rest) := by
  cases resolves with
  | unchanged _ =>
      exact others
  | indent _ _ =>
      simp only [layout, List.map_cons, List.map_nil, Emission.entry, delivery_start]
      rw [line.width_eq_utf8ByteSize]
      exact .cons (.indentNote rfl) (.cons (.indent rfl) (others.behind _))
  | dedent _ positive _ _ _ =>
      simp only [layout, List.map_cons, List.map_replicate, Emission.entry,
        delivery_start]
      rw [line.width_eq_utf8ByteSize]
      refine .group positive (.line member ?_) others
      intro next isNext
      exact .inr (goesOn next isNext)

end Line

theorem pushed_entries
    (tokens : List Token) :
    (tokens.map Emission.push).map Emission.entry =
      tokens.map Token.delivery := by
  rw [List.map_map]
  rfl

/-- The end of the input closes the blocks that are open. -/
theorem inPlace_closeBlocks
    (source : String)
    (indentation : Indentation) :
    InPlace source []
      ((closeBlocks source indentation).allEmissions.map Emission.entry) := by
  have last :
      InPlace source [] [.deliver (1 + source.toList.count '\n') .eof ""] :=
    .cons (.token TokenKind.noConfusion TokenKind.noConfusion) .nil
  rw [Course.allEmissions, closeBlocks]
  by_cases flat : indentation.depth = 0
  · simp only [flat, ↓reduceIte, List.nil_append]
    exact last
  · simp only [flat, ↓reduceIte, List.map_append, List.map_cons,
      List.map_replicate, List.cons_append, List.map_nil]
    refine .group (Nat.pos_of_ne_zero flat) (.sourceEnd ?_) last
    intro next isNext
    exact .inr (Option.some.inj isNext).symm

/-- On the course from some lines on, every entry stands in its place. -/
theorem inPlace_layOut
    {source : String}
    {lines : List Line}
    (logical : ∀ line ∈ lines, line ∈ logicalLines source)
    (indentation : Indentation) :
    InPlace source []
      (((layOut lines indentation).andThen
        (closeBlocks source)).allEmissions.map Emission.entry) := by
  induction lines generalizing indentation with
  | nil =>
      exact inPlace_closeBlocks source indentation
  | cons line others inductionHypothesis =>
      obtain ⟨member, logicalOthers⟩ := List.forall_mem_cons.mp logical
      obtain ⟨_, isLogical⟩ := isLogical_of_mem_logicalLines member
      have plain :
          ∀ token ∈ line.lexed.tokens,
            token.kind ≠ .indent ∧ token.kind ≠ .dedent := by
        intro token tokenMember
        have lexical := isLayout_of_mem_lexemes tokenMember
        exact ⟨TokenKind.ne_of_lexical lexical rfl,
          TokenKind.ne_of_lexical lexical rfl⟩
      rw [layOut, Course.andThen_andThen, Line.course]
      cases found : indentation.resolve line.width with
      | error mismatch =>
          exact .nil
      | ok resolution =>
          obtain ⟨change, resolved⟩ := resolution
          have resolves := Indentation.resolves_of_resolve found
          dsimp only
          rw [Course.andThen_after, Course.allEmissions_after, List.map_append,
            Line.statement]
          cases failed : line.lexed.error? with
          | some error =>
              simp only [Course.andThen, Course.allEmissions, pushed_entries]
              rw [← List.append_nil (line.lexed.tokens.map Token.delivery)]
              refine line.inPlace_layout resolves member ?_ (.tokens plain .nil)
              intro next isNext
              exact Line.head?_lexed isLogical (fun _ => rfl) isNext
          | none =>
              rw [Course.andThen_ok, Course.allEmissions_after, List.append_assoc,
                List.map_append, pushed_entries, List.map_append]
              refine line.inPlace_layout resolves member ?_ (.tokens plain ?_)
              · intro next isNext
                exact Line.head?_lexed isLogical (absurd failed) isNext
              · have later := inductionHypothesis logicalOthers resolved
                rw [Line.newline]
                split
                · exact later
                · exact .cons (.token TokenKind.noConfusion TokenKind.noConfusion)
                    (later.behind _)

/-! ### Deliveries -/

/-- What a course notes is no delivery. -/
theorem isDelivery_of_note
    {source : String}
    {lines : List Line}
    {indentation : Indentation}
    {event : Event}
    (member :
      .note event ∈
        ((layOut lines indentation).andThen (closeBlocks source)).allEmissions) :
    event.isDelivery = false := by
  induction lines generalizing indentation with
  | nil =>
      by_cases flat : indentation.depth = 0
      · simp [layOut, Course.andThen, Course.after, Course.allEmissions, closeBlocks,
          flat] at member
      · simp only [layOut, Course.andThen, Course.after, Course.allEmissions,
          closeBlocks, flat, ↓reduceIte, List.nil_append, List.cons_append,
          List.mem_cons, List.mem_append, List.mem_replicate, Emission.note.injEq,
          reduceCtorEq, and_false, List.not_mem_nil, or_false] at member
        rw [member]
        rfl
  | cons line others inductionHypothesis =>
      rw [layOut, Course.andThen_andThen, Line.course] at member
      cases found : indentation.resolve line.width with
      | error mismatch =>
          simp [found, Course.andThen, Course.allEmissions] at member
      | ok resolution =>
          obtain ⟨change, resolved⟩ := resolution
          simp only [found, Course.andThen_after, Course.allEmissions_after,
            List.mem_append] at member
          rcases member with early | late
          · cases change with
            | unchanged =>
                cases early
            | indent =>
                simp only [Line.layout, List.mem_cons, Emission.note.injEq,
                  reduceCtorEq, List.not_mem_nil, or_false] at early
                rw [early]
                rfl
            | dedent closed =>
                simp only [Line.layout, List.mem_cons, List.mem_replicate,
                  Emission.note.injEq, reduceCtorEq, and_false, or_false] at early
                rw [early]
                rfl
          · rw [Line.statement] at late
            cases failed : line.lexed.error? with
            | some error =>
                simp [failed, Course.andThen, Course.allEmissions] at late
            | none =>
                simp only [failed, Course.andThen_ok, Course.allEmissions_after,
                  List.mem_append] at late
                rcases late with (lexical | terminator) | later
                · simp at lexical
                · rw [Line.newline] at terminator
                  split at terminator <;> simp at terminator
                · exact inductionHypothesis later

/-- The deliveries in a log are those of the tokens that were pushed. -/
theorem filter_isDelivery
    {emissions : List Emission}
    (noted : ∀ event, .note event ∈ emissions → event.isDelivery = false) :
    (emissions.map Emission.entry).filter Event.isDelivery =
      (pushedBy emissions).map Token.delivery := by
  induction emissions with
  | nil =>
      rfl
  | cons emission rest inductionHypothesis =>
      have others := inductionHypothesis fun event member =>
        noted event (List.mem_cons_of_mem emission member)
      cases emission with
      | note event =>
          have dropped : event.isDelivery = false :=
            noted event List.mem_cons_self
          simp [Emission.entry, dropped, others]
      | push token =>
          have kept : token.delivery.isDelivery = true := rfl
          simp [Emission.entry, kept, others]

end LayoutLexer
