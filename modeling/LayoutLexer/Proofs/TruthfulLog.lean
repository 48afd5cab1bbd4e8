import LayoutLexer.Proofs.LogEntries

namespace LayoutLexer

/-!
# Logs tell what sessions did

The main theorem says of every session what its log holds: the deliveries of the
tokens that were pushed, an announcement right before every indent and every group
of dedents, and a last entry about the end. It holds too of a session that its
parser ends within a group.

A session breaks off behind a delivery. So what stands before an entry stays, and
what should come behind it is there too or cut off by the last entry
(`BreaksOff`).
-/

/-- A group of delivered dedents in a log, as long as it can be. -/
structure DedentGroup (log before group after : List Event) : Prop where
  shape : log = before ++ (group ++ after)
  present : group ≠ []
  dedents : ∀ event ∈ group, event.deliversDedent = true
  notBefore : ∀ event ∈ before.getLast?, event.deliversDedent = false
  notAfter : ∀ event ∈ after.head?, event.deliversDedent = false

/-- A log tells of a session which tokens were pushed and what came of it. -/
structure Tells
    (source : String)
    (pushed : List Token)
    (result : Except SessionError ω)
    (log : List Event) :
    Prop where
  /-- Every token pushed is delivered, in order. -/
  deliveries : log.filter Event.isDelivery = pushed.map Token.delivery
  /-- Every indent comes right behind its announcement. -/
  indents :
    ∀ before line text after,
      log = before ++ .deliver line .indent text :: after →
        before.getLast? = some (.indent line text.utf8ByteSize)
  /-- Nothing else is announced as an indent. -/
  indentNotes :
    ∀ before line width after,
      log = before ++ .indent line width :: after →
        ∃ text,
          width = text.utf8ByteSize ∧
            after.head? = some (.deliver line .indent text)
  /--
  Every group of dedents comes right behind its announcement. It has the length
  announced, unless the parser ends the session within it.
  -/
  dedents :
    ∀ before group after,
      DedentGroup log before group after →
        ∃ earlier header dedent closed,
          before = earlier ++ [header] ∧
            group = List.replicate group.length dedent ∧
            group.length ≤ closed ∧
            ClosesBlocks source closed header dedent after.head? ∧
            (group.length < closed →
              after.length = 1 ∧
                ∃ error, result = .error error ∧ error.category = .parser)
  /-- Nothing else is announced as a group of dedents. -/
  dedentNotes :
    ∀ before header after,
      log = before ++ header :: after →
        header.announcesDedents = true →
          ∃ dedent, after.head? = some dedent ∧ dedent.deliversDedent = true
  /-- The last entry, and only this, says how the session ended. -/
  ending :
    ∃ entries,
      (∀ entry ∈ entries,
        entry.isDelivery = true ∨ (∃ line width, entry = .indent line width) ∨
          entry.announcesDedents = true) ∧
      log =
        entries ++
          [Session.lastEntry source (log.countP Event.isDelivery) result]

/-! ### Sessions that break off -/

/-- A group of dedents and what stands behind it are told apart in one way. -/
theorem DedentGroup.eq_of_append
    {log before group after others later : List Event}
    (isGroup : DedentGroup log before group after)
    (same : group ++ after = others ++ later)
    (dedents : ∀ event ∈ others, event.deliversDedent = true)
    (notAfter : ∀ event ∈ later.head?, event.deliversDedent = false) :
    group = others ∧ after = later := by
  have taken :
      ∀ {first second : List Event},
        (∀ event ∈ first, event.deliversDedent = true) →
        (∀ event ∈ second.head?, event.deliversDedent = false) →
        (first ++ second).takeWhile Event.deliversDedent = first := by
    intro first second all stops
    rw [List.takeWhile_append_of_pos all]
    cases second with
    | nil =>
        simp
    | cons next rest =>
        simp [stops next rfl]
  have isOthers : group = others := by
    rw [← taken isGroup.dedents isGroup.notAfter, same, taken dedents notAfter]
  rw [isOthers] at same
  exact ⟨isOthers, List.append_cancel_left same⟩

/-- A log holds a first part of some entries in their places, and a last entry. -/
structure BreaksOff (source : String) (done rest : List Event) (last : Event) : Prop where
  inPlace : InPlace source [] (done ++ rest)
  isLast : last.isLast = true
  /-- What breaks off breaks off behind a delivery. -/
  delivered : rest ≠ [] → ∃ entry ∈ done.getLast?, entry.isDelivery = true

namespace BreaksOff

variable {source : String}
variable {done rest before after : List Event}
variable {event last : Event}

/-- Every entry but the last is in its place among all entries. -/
theorem placed
    (breaks : BreaksOff source done rest last)
    (shape : done ++ [last] = before ++ event :: after)
    (notLast : event.isLast = false) :
    ∃ behind,
      after = behind ++ [last] ∧
        done = before ++ event :: behind ∧
        Placed source before (behind ++ rest) event := by
  rcases List.eq_nil_or_concat' after with isEmpty | ⟨behind, final, isConcat⟩
  · rw [isEmpty] at shape
    obtain ⟨_, same⟩ := List.append_inj' shape rfl
    rw [← (List.cons.inj same).1, breaks.isLast] at notLast
    cases notLast
  · rw [isConcat, ← List.cons_append, ← List.append_assoc] at shape
    obtain ⟨isDone, same⟩ := List.append_inj' shape rfl
    refine ⟨behind, ?_, isDone, ?_⟩
    · rw [isConcat, (List.cons.inj same).1]
    · exact breaks.inPlace before event (behind ++ rest) (by simp [isDone])

/-- An announcement is not the last thing before a session breaks off. -/
theorem head?_of_announcement
    (breaks : BreaksOff source done rest last)
    {behind : List Event}
    {next : Event}
    (isDone : done = before ++ event :: behind)
    (notDelivery : event.isDelivery = false)
    (goesOn : (behind ++ rest).head? = some next) :
    (behind ++ [last]).head? = some next := by
  cases behind with
  | nil =>
      have more : rest ≠ [] := by
        intro isEmpty
        rw [isEmpty] at goesOn
        cases goesOn
      obtain ⟨entry, isFinal, delivery⟩ := breaks.delivered more
      rw [isDone, List.getLast?_concat] at isFinal
      rw [← Option.some.inj isFinal, notDelivery] at delivery
      cases delivery
  | cons first others =>
      exact goesOn

theorem indent_announced
    (breaks : BreaksOff source done rest last)
    {line : Nat}
    {text : String}
    (shape : done ++ [last] = before ++ .deliver line .indent text :: after) :
    before.getLast? = some (.indent line text.utf8ByteSize) := by
  obtain ⟨behind, _, _, placed⟩ := breaks.placed shape rfl
  generalize isEntry : Event.deliver line .indent text = entry at placed
  cases placed with
  | token noIndent _ =>
      cases isEntry
      exact absurd rfl noIndent
  | indent announced =>
      cases isEntry
      exact announced
  | dedent _ closes =>
      have isDedent := closes.deliversDedent
      rw [← isEntry] at isDedent
      cases isDedent
  | indentNote =>
      cases isEntry
  | dedentNote _ _ closes =>
      have announces := closes.announcesDedents
      rw [← isEntry] at announces
      cases announces

theorem indent_delivered
    (breaks : BreaksOff source done rest last)
    {line width : Nat}
    (shape : done ++ [last] = before ++ .indent line width :: after) :
    ∃ text,
      width = text.utf8ByteSize ∧
        after.head? = some (.deliver line .indent text) := by
  obtain ⟨behind, isAfter, isDone, placed⟩ := breaks.placed shape rfl
  rw [isAfter]
  generalize isEntry : Event.indent line width = entry at placed
  cases placed with
  | token =>
      cases isEntry
  | indent =>
      cases isEntry
  | dedent _ closes =>
      have isDedent := closes.deliversDedent
      rw [← isEntry] at isDedent
      cases isDedent
  | @indentNote _ text goesOn =>
      cases isEntry
      exact ⟨text, rfl, breaks.head?_of_announcement isDone rfl goesOn⟩
  | dedentNote _ _ closes =>
      have announces := closes.announcesDedents
      rw [← isEntry] at announces
      cases announces

/-- An announcement of dedents among all entries, wherever they break off. -/
theorem exists_closes
    (breaks : BreaksOff source done rest last)
    (shape : done ++ [last] = before ++ event :: after)
    (announces : event.announcesDedents = true) :
    ∃ behind dedent closed later,
      after = behind ++ [last] ∧
        done = before ++ event :: behind ∧
        0 < closed ∧
        behind ++ rest = List.replicate closed dedent ++ later ∧
        ClosesBlocks source closed event dedent later.head? := by
  have notDelivery := Event.isDelivery_of_announcesDedents announces
  obtain ⟨behind, isAfter, isDone, placed⟩ :=
    breaks.placed shape (Event.isLast_of_announcesDedents announces)
  cases placed with
  | dedent _ closes =>
      rw [Event.isDelivery_of_deliversDedent closes.deliversDedent] at notDelivery
      cases notDelivery
  | dedentNote positive goesOn closes =>
      exact ⟨behind, _, _, _, isAfter, isDone, positive, goesOn, closes⟩
  | _ =>
      cases announces

theorem dedent_delivered
    (breaks : BreaksOff source done rest last)
    (shape : done ++ [last] = before ++ event :: after)
    (announces : event.announcesDedents = true) :
    ∃ dedent, after.head? = some dedent ∧ dedent.deliversDedent = true := by
  obtain ⟨behind, dedent, closed, later, isAfter, isDone, positive, goesOn, closes⟩ :=
    breaks.exists_closes shape announces
  refine ⟨dedent, ?_, closes.deliversDedent⟩
  rw [isAfter]
  apply breaks.head?_of_announcement isDone
    (Event.isDelivery_of_announcesDedents announces)
  rw [goesOn, List.head?_append, List.head?_replicate, if_neg (Nat.ne_of_gt positive)]
  rfl

/-- Right before a group of dedents stands their announcement. -/
theorem exists_header
    (breaks : BreaksOff source done rest last)
    {group : List Event}
    (isGroup : DedentGroup (done ++ [last]) before group after) :
    ∃ earlier header,
      before = earlier ++ [header] ∧ header.announcesDedents = true := by
  obtain ⟨first, others, isCons⟩ := List.exists_cons_of_ne_nil isGroup.present
  have isDedent : first.deliversDedent = true :=
    isGroup.dedents first (by simp [isCons])
  have shape : done ++ [last] = before ++ first :: (others ++ after) := by
    rw [isGroup.shape, isCons, List.cons_append]
  have delivery := Event.isDelivery_of_deliversDedent isDedent
  obtain ⟨behind, _, _, placed⟩ :=
    breaks.placed shape (Event.isLast_of_isDelivery delivery)
  cases placed with
  | @token _ kind _ _ noDedent =>
      cases kind with
      | dedent =>
          exact absurd rfl noDedent
      | _ =>
          cases isDedent
  | @dedent earlier header _ _ count _ stands closes =>
      -- Another dedent of the group right before would make it longer.
      cases count with
      | zero =>
          exact ⟨earlier, header, stands, closes.announcesDedents⟩
      | succ count =>
          have longer : first ∈ before.getLast? := by
            rw [stands, List.replicate_succ', ← List.cons_append, ← List.append_assoc,
              List.getLast?_concat]
            rfl
          rw [isGroup.notBefore first longer] at isDedent
          cases isDedent
  | dedentNote _ _ closes =>
      rw [Event.isDelivery_of_announcesDedents closes.announcesDedents] at delivery
      cases delivery
  | _ =>
      cases isDedent

/-- A group of dedents is as long as announced, unless the session breaks off. -/
theorem group_announced
    (breaks : BreaksOff source done rest last)
    {group : List Event}
    (isGroup : DedentGroup (done ++ [last]) before group after) :
    ∃ earlier header dedent closed,
      before = earlier ++ [header] ∧
        group = List.replicate group.length dedent ∧
        group.length ≤ closed ∧
        ClosesBlocks source closed header dedent after.head? ∧
        (group.length < closed → after.length = 1 ∧ rest ≠ []) := by
  obtain ⟨earlier, header, isBefore, announces⟩ := breaks.exists_header isGroup
  have shape : done ++ [last] = earlier ++ header :: (group ++ after) := by
    rw [isGroup.shape, isBefore, List.append_assoc, List.singleton_append]
  obtain ⟨behind, dedent, closed, later, isAfter, _, _, goesOn, closes⟩ :=
    breaks.exists_closes shape announces
  have areDedents :
      ∀ count, ∀ event ∈ List.replicate count dedent,
        event.deliversDedent = true := by
    intro count event member
    rw [List.eq_of_mem_replicate member]
    exact closes.deliversDedent
  refine ⟨earlier, header, dedent, closed, isBefore, ?_⟩
  rcases List.append_eq_append_iff.mp goesOn with
      ⟨cut, isReplicate, isRest⟩ | ⟨between, isBehind, isLater⟩
  · -- The session breaks off within the group or right behind it.
    obtain ⟨counted, isPart, _⟩ := List.append_eq_replicate_iff.mp isReplicate.symm
    have ends := closes.ended breaks.isLast
    rw [isPart] at isAfter
    obtain ⟨isAll, isEnd⟩ :=
      isGroup.eq_of_append isAfter (areDedents behind.length)
        fun event isNext => ends.next_notDedent isNext
    rw [isAll, isEnd, List.length_replicate]
    refine ⟨rfl, by omega, ends, ?_⟩
    intro fewer
    refine ⟨rfl, ?_⟩
    intro isEmpty
    rw [isEmpty] at isRest
    have noCut : cut = [] := (List.append_eq_nil_iff.mp isRest.symm).1
    rw [noCut, List.length_nil] at counted
    omega
  · -- The group is complete, and something of what comes next may be done too.
    have goesBehind :
        ClosesBlocks source closed header dedent (between ++ [last]).head? := by
      cases between with
      | nil =>
          exact closes.ended breaks.isLast
      | cons next others =>
          rw [isLater] at closes
          exact closes
    rw [isBehind, List.append_assoc] at isAfter
    obtain ⟨isAll, isEnd⟩ :=
      isGroup.eq_of_append isAfter (areDedents closed)
        fun event isNext => goesBehind.next_notDedent isNext
    rw [isAll, isEnd, List.length_replicate]
    exact ⟨rfl, Nat.le_refl closed, goesBehind,
      fun fewer => absurd fewer (Nat.lt_irrefl closed)⟩

/-- Every entry but the last is a delivery or an announcement. -/
theorem entries_cases
    (breaks : BreaksOff source done rest last)
    {entry : Event}
    (member : entry ∈ done) :
    entry.isDelivery = true ∨ (∃ line width, entry = .indent line width) ∨
      entry.announcesDedents = true := by
  obtain ⟨before, after, isDone⟩ := List.append_of_mem member
  exact (breaks.inPlace before entry (after ++ rest) (by simp [isDone])).cases_entry

end BreaksOff

open Session

/-- The log of a session breaks off where its parser stops it. -/
theorem exists_breaksOff
    (parser : Parser σ ω)
    (source : String) :
    ∃ done rest last,
      BreaksOff source done rest last ∧
        (run parser source).log = done ++ [last] ∧
        done.filter Event.isDelivery =
          (pushedTokens parser source).map Token.delivery ∧
        last = lastEntry source (pushedTokens parser source).length
          (run parser source).result ∧
        (rest ≠ [] → ∃ error,
          (run parser source).result = .error error ∧ error.category = .parser) := by
  obtain ⟨done, rest, whole, pushed, log, stopped⟩ := exists_done parser source
  have inPlace :
      InPlace source [] (done.map Emission.entry ++ rest.map Emission.entry) := by
    rw [← List.map_append, ← whole]
    exact inPlace_layOut (fun line member => member) .topLevel
  have noted :
      ∀ event, .note event ∈ done → event.isDelivery = false := by
    intro event member
    have onCourse : .note event ∈ (courseOf source).allEmissions := by
      rw [whole]
      exact List.mem_append_left rest member
    exact isDelivery_of_note onCourse
  rw [pushed]
  refine ⟨done.map Emission.entry, rest.map Emission.entry, _, ⟨inPlace, ?_, ?_⟩,
    log, filter_isDelivery noted, rfl, ?_⟩
  · cases (run parser source).result <;> rfl
  · intro more
    have left : rest ≠ [] := fun isEmpty => more (by rw [isEmpty]; rfl)
    obtain ⟨_, before, token, isDone⟩ := stopped left
    refine ⟨token.delivery, ?_, rfl⟩
    rw [isDone, List.map_append]
    exact List.getLast?_concat
  · intro more
    have left : rest ≠ [] := fun isEmpty => more (by rw [isEmpty]; rfl)
    exact (stopped left).1

/--
The log of a session, shown at the least severe level and headed by the operation
it was run for, tells exactly what the session did.
-/
theorem log_tells_session
    (parser : Parser σ ω)
    (operation : Operation)
    (source : String) :
    Event.atLevel .trace ((run parser source).announced operation source) =
        .started operation source.utf8ByteSize :: (run parser source).log ∧
      Tells source (pushedTokens parser source) (run parser source).result
        (run parser source).log := by
  refine ⟨Event.atLevel_trace _, ?_⟩
  obtain ⟨done, rest, last, breaks, log, delivered, isEnd, stopped⟩ :=
    exists_breaksOff parser source
  have notDelivery : last.isDelivery = false := by
    cases delivery : last.isDelivery with
    | false =>
        rfl
    | true =>
        have ends := breaks.isLast
        rw [Event.isLast_of_isDelivery delivery] at ends
        cases ends
  have deliveries :
      (run parser source).log.filter Event.isDelivery =
        (pushedTokens parser source).map Token.delivery := by
    rw [log, List.filter_append, delivered]
    simp [notDelivery]
  have counted :
      (run parser source).log.countP Event.isDelivery =
        (pushedTokens parser source).length := by
    rw [List.countP_eq_length_filter, deliveries, List.length_map]
  exact
    { deliveries := deliveries
      indents := fun before line text after shape =>
        breaks.indent_announced (log.symm.trans shape)
      indentNotes := fun before line width after shape =>
        breaks.indent_delivered (log.symm.trans shape)
      dedents := by
        intro before group after isGroup
        rw [log] at isGroup
        obtain ⟨earlier, header, dedent, closed, isBefore, same, atMost, closes,
          fewer⟩ := breaks.group_announced isGroup
        refine ⟨earlier, header, dedent, closed, isBefore, same, atMost, closes, ?_⟩
        intro short
        exact ⟨(fewer short).1, stopped (fewer short).2⟩
      dedentNotes := fun before header after shape announces =>
        breaks.dedent_delivered (log.symm.trans shape) announces
      ending := by
        refine ⟨done, fun entry member => breaks.entries_cases member, ?_⟩
        rw [counted, log, isEnd] }

end LayoutLexer
