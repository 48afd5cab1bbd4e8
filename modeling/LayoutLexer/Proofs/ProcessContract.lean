import LayoutLexer.CommandLine.Response
import LayoutLexer.Proofs.Reading
import LayoutLexer.Proofs.WellBlocked

namespace LayoutLexer

/-!
# What the program promises

The exit status says whether there was something to work on, whether it could be
read, and whether its session was a success. On success the report is all that
is printed, otherwise nothing is. A file that passes the check can be listed,
and an error that is not the checker's own is the same for both commands.
-/

/-! ### Reports -/

namespace Report

variable {ω : Type}
variable {name source : String}
variable {log : List Event}
variable {render : ω → String}
variable {result : Except SessionError ω}
variable {report : String}
variable {failure : Failure}

/-- A report is made of the output of a session. -/
theorem ofOutcome_result_eq_ok_iff :
    (ofOutcome name log render result).result = .ok report ↔
      ∃ output, result = .ok output ∧ report = render output := by
  cases result <;> simp [ofOutcome, eq_comm]

/-- A failure is the error of a session, under the name of its source. -/
theorem ofOutcome_result_eq_error_iff :
    (ofOutcome name log render result).result = .error failure ↔
      ∃ error, result = .error error ∧ failure = ⟨name, error⟩ := by
  cases result <;> simp [ofOutcome, eq_comm]

theorem make_tokens_eq_ok_iff
    (json : Bool) :
    (make (if json then .json else .listing) name source).result =
        .ok report ↔
      ∃ tokens,
        lex source = .ok tokens ∧
          report = if json then Report.json tokens else listing tokens := by
  cases json <;> exact ofOutcome_result_eq_ok_iff

theorem make_tokens_eq_error_iff
    (json : Bool) :
    (make (if json then .json else .listing) name source).result =
        .error failure ↔
      ∃ error, lex source = .error error ∧ failure = ⟨name, error⟩ := by
  cases json <;> exact ofOutcome_result_eq_error_iff

theorem make_check_eq_ok_iff :
    (make .check name source).result = .ok report ↔
      ∃ counted,
        LayoutLexer.check source = .ok counted ∧
          report = summary name counted :=
  ofOutcome_result_eq_ok_iff

theorem make_check_eq_error_iff :
    (make .check name source).result = .error failure ↔
      ∃ error,
        LayoutLexer.check source = .error error ∧ failure = ⟨name, error⟩ :=
  ofOutcome_result_eq_error_iff

end Report

namespace CommandLine

/-! ### Answers -/

namespace Response

variable {format : ReportFormat}
variable {read : Except InputError Input}

/-- The report on an input is printed, and a line end behind it. -/
theorem ofInput_eq_printed_iff
    {text : String} :
    ofInput format read = printed text ↔
      ∃ input report,
        read = .ok input ∧
          (Report.make format input.name input.source).result = .ok report ∧
          text = report ++ "\n" := by
  cases read with
  | error error =>
      simp [ofInput, failed, printed]
  | ok input =>
      cases made : (Report.make format input.name input.source).result with
      | error failure =>
          simp [ofInput, made, failed, printed]
      | ok report =>
          simp [ofInput, made, printed, eq_comm]

/-- The error of a session is complained of when the input was read. -/
theorem ofInput_eq_session_iff
    {failure : Failure} :
    ofInput format read = failed (.session failure) ↔
      ∃ input,
        read = .ok input ∧
          (Report.make format input.name input.source).result =
            .error failure := by
  cases read with
  | error error =>
      simp [ofInput, failed]
  | ok input =>
      cases made : (Report.make format input.name input.source).result with
      | error refusal =>
          simp [ofInput, made, failed]
      | ok report =>
          simp [ofInput, made, failed, printed]

/-- Something is printed or something is complained of. -/
theorem ofInput_cases
    (format : ReportFormat)
    (read : Except InputError Input) :
    (∃ text, ofInput format read = printed text) ∨
      ∃ complaint, ofInput format read = failed complaint := by
  cases read with
  | error error =>
      exact .inr ⟨_, rfl⟩
  | ok input =>
      cases made : (Report.make format input.name input.source).result with
      | error failure =>
          exact .inr ⟨.session failure, by simp [ofInput, made]⟩
      | ok report =>
          exact .inl ⟨report ++ "\n", by simp [ofInput, made]⟩

end Response

/-! ### Commands -/

/--
A command line has something to report: its input can be read, and can be lexed
or passes the check. A file alone is checked.
-/
inductive Succeeds
    (surroundings : Surroundings) :
    Arguments → String → Prop where
  | tokens
      {file : String} {outer : Option String} {input : Input}
      {tokens : List Token} (json : Bool) :
      surroundings.Provides file input →
      lex input.source = .ok tokens →
      Succeeds surroundings ⟨some (.tokens file json), outer⟩
        (if json then Report.json tokens else Report.listing tokens)
  | check
      {file : String} {outer : Option String} {input : Input}
      {summary : Blocks.Summary} :
      surroundings.Provides file input →
      LayoutLexer.check input.source = .ok summary →
      Succeeds surroundings ⟨some (.check file), outer⟩
        (Report.summary input.name summary)
  | fileAlone
      {file : String} {input : Input} {summary : Blocks.Summary} :
      surroundings.Provides file input →
      LayoutLexer.check input.source = .ok summary →
      Succeeds surroundings ⟨none, some file⟩
        (Report.summary input.name summary)

section

variable {surroundings : Surroundings}
variable {arguments : Arguments}

/-- There is a task unless there is neither a command nor a file. -/
theorem Arguments.task?_eq_none_iff :
    arguments.task? = none ↔
      arguments.command = none ∧ arguments.file = none := by
  obtain ⟨_ | command, file⟩ := arguments
  · cases file <;> simp [Arguments.task?]
  · cases command <;> simp [Arguments.task?]

/-- A command line has a report if its task has one, on what can be read. -/
theorem succeeds_iff
    {report : String} :
    Succeeds surroundings arguments report ↔
      ∃ task input,
        arguments.task? = some task ∧
          surroundings.Provides task.path input ∧
          (Report.make task.format input.name input.source).result =
            .ok report := by
  constructor
  · intro succeeds
    cases succeeds with
    | tokens json provided lexed =>
        exact ⟨_, _, rfl, provided,
          (Report.make_tokens_eq_ok_iff json).mpr ⟨_, lexed, rfl⟩⟩
    | check provided accepted =>
        exact ⟨_, _, rfl, provided,
          Report.make_check_eq_ok_iff.mpr ⟨_, accepted, rfl⟩⟩
    | fileAlone provided accepted =>
        exact ⟨_, _, rfl, provided,
          Report.make_check_eq_ok_iff.mpr ⟨_, accepted, rfl⟩⟩
  · rintro ⟨task, input, set, provided, made⟩
    obtain ⟨_ | command, outer⟩ := arguments
    · cases outer with
      | none =>
          cases set
      | some file =>
          cases set
          obtain ⟨counted, accepted, rfl⟩ := Report.make_check_eq_ok_iff.mp made
          exact .fileAlone provided accepted
    · cases command with
      | tokens file json =>
          cases set
          obtain ⟨tokens, lexed, rfl⟩ :=
            (Report.make_tokens_eq_ok_iff json).mp made
          exact .tokens json provided lexed
      | check file =>
          cases set
          obtain ⟨counted, accepted, rfl⟩ := Report.make_check_eq_ok_iff.mp made
          exact .check provided accepted

/-- A report is printed exactly if there is one. -/
theorem execute_eq_printed_iff
    {text : String} :
    execute surroundings arguments = .printed text ↔
      ∃ report,
        Succeeds surroundings arguments report ∧ text = report ++ "\n" := by
  simp only [succeeds_iff]
  rw [execute]
  cases arguments.task? with
  | none =>
      simp [Response.noInput, Response.printed]
  | some task =>
      simp only [Response.ofInput_eq_printed_iff,
        Surroundings.readInput_eq_ok_iff]
      constructor
      · rintro ⟨input, report, provided, made, rfl⟩
        exact ⟨report, ⟨task, input, rfl, provided, made⟩, rfl⟩
      · rintro ⟨report, ⟨_, input, set, provided, made⟩, rfl⟩
        cases set
        exact ⟨input, report, provided, made, rfl⟩

/-- Without a task there is a hint, otherwise a report or a complaint. -/
theorem execute_cases
    (surroundings : Surroundings)
    (arguments : Arguments) :
    arguments.task? = none ∧ execute surroundings arguments = .noInput ∨
      arguments.task? ≠ none ∧
        ((∃ text, execute surroundings arguments = .printed text) ∨
          ∃ complaint, execute surroundings arguments = .failed complaint) := by
  rw [execute]
  cases arguments.task? with
  | none =>
      exact .inl ⟨rfl, rfl⟩
  | some task =>
      exact .inr ⟨nofun, Response.ofInput_cases task.format _⟩

/-! ### Exit statuses -/

theorem code_execute_eq_two_iff :
    (execute surroundings arguments).status.code = 2 ↔
      arguments.command = none ∧ arguments.file = none := by
  rw [← Arguments.task?_eq_none_iff]
  rcases execute_cases surroundings arguments with
    ⟨noTask, answered⟩ | ⟨hasTask, ⟨text, answered⟩ | ⟨complaint, answered⟩⟩
  · simp [answered, noTask, Response.noInput, ExitStatus.code]
  · simp [answered, hasTask, Response.printed, ExitStatus.code]
  · simp [answered, hasTask, Response.failed, ExitStatus.code]

theorem code_execute_eq_zero_iff :
    (execute surroundings arguments).status.code = 0 ↔
      ∃ report, Succeeds surroundings arguments report := by
  constructor
  · intro success
    rcases execute_cases surroundings arguments with
      ⟨_, answered⟩ | ⟨_, ⟨text, answered⟩ | ⟨complaint, answered⟩⟩
    · rw [answered] at success
      cases success
    · obtain ⟨report, succeeds, _⟩ := execute_eq_printed_iff.mp answered
      exact ⟨report, succeeds⟩
    · rw [answered] at success
      cases success
  · rintro ⟨report, succeeds⟩
    rw [execute_eq_printed_iff.mpr ⟨report, succeeds, rfl⟩]
    rfl

theorem code_execute_eq_one_iff :
    (execute surroundings arguments).status.code = 1 ↔
      ¬(arguments.command = none ∧ arguments.file = none) ∧
        ¬∃ report, Succeeds surroundings arguments report := by
  rw [← code_execute_eq_zero_iff, ← @code_execute_eq_two_iff surroundings]
  cases (execute surroundings arguments).status <;> simp [ExitStatus.code]

theorem stdout_execute_of_succeeds
    {report : String}
    (succeeds : Succeeds surroundings arguments report) :
    (execute surroundings arguments).stdout = report ++ "\n" := by
  rw [execute_eq_printed_iff.mpr ⟨report, succeeds, rfl⟩]
  rfl

theorem stdout_execute_of_code_ne_zero
    (unsuccessful : (execute surroundings arguments).status.code ≠ 0) :
    (execute surroundings arguments).stdout = "" := by
  rcases execute_cases surroundings arguments with
    ⟨_, answered⟩ | ⟨_, ⟨text, answered⟩ | ⟨complaint, answered⟩⟩
  · rw [answered]
    rfl
  · rw [answered] at unsuccessful
    exact absurd rfl unsuccessful
  · rw [answered]
    rfl

/-! ### Checking and listing the same file -/

variable {file : String}
variable {outer : Option String}

/-- A file that passes the check can be listed. -/
theorem code_tokens_of_code_check
    (passes :
      (execute surroundings ⟨some (.check file), outer⟩).status.code = 0)
    (json : Bool)
    (other : Option String) :
    (execute surroundings ⟨some (.tokens file json), other⟩).status.code =
      0 := by
  obtain ⟨report, succeeds⟩ := code_execute_eq_zero_iff.mp passes
  cases succeeds with
  | check provided accepted =>
      obtain ⟨tokens, lexed⟩ := exists_lex_of_check accepted
      exact code_execute_eq_zero_iff.mpr ⟨_, .tokens json provided lexed⟩

/-- An error that is not the checker's own keeps a file from being listed. -/
theorem execute_tokens_of_execute_check
    {failure : Failure}
    (fails :
      execute surroundings ⟨some (.check file), outer⟩ =
        .failed (.session failure))
    (notRefused : failure.error.category ≠ .parser)
    (json : Bool)
    (other : Option String) :
    execute surroundings ⟨some (.tokens file json), other⟩ =
      .failed (.session failure) := by
  obtain ⟨input, read, checked⟩ := Response.ofInput_eq_session_iff.mp fails
  obtain ⟨error, refused, rfl⟩ := Report.make_check_eq_error_iff.mp checked
  have failed : lex input.source = .error error :=
    lex_eq_error_of_run refused notRefused
  exact Response.ofInput_eq_session_iff.mpr
    ⟨input, read, (Report.make_tokens_eq_error_iff json).mpr
      ⟨error, failed, rfl⟩⟩

end

/--
What the program promises for every command line. It exits with 2 without a
command and a file, with 0 if there is a report, and with 1 otherwise. It prints
the report and a line end, or nothing. A file alone is checked, and one besides
a command plays no part. What passes the check can be listed, and what cannot be
lexed fails the check with the same error.
-/
theorem execute_honours_contract
    (surroundings : Surroundings)
    (arguments : Arguments) :
    ((execute surroundings arguments).status.code = 2 ↔
      arguments.command = none ∧ arguments.file = none) ∧
    ((execute surroundings arguments).status.code = 0 ↔
      ∃ report, Succeeds surroundings arguments report) ∧
    ((execute surroundings arguments).status.code = 1 ↔
      ¬(arguments.command = none ∧ arguments.file = none) ∧
        ¬∃ report, Succeeds surroundings arguments report) ∧
    (∀ report, Succeeds surroundings arguments report →
      (execute surroundings arguments).stdout = report ++ "\n") ∧
    ((execute surroundings arguments).status.code ≠ 0 →
      (execute surroundings arguments).stdout = "") ∧
    (∀ file outer,
      execute surroundings ⟨none, some file⟩ =
        execute surroundings ⟨some (.check file), outer⟩) ∧
    (∀ command outer other,
      execute surroundings ⟨some command, outer⟩ =
        execute surroundings ⟨some command, other⟩) ∧
    (∀ file json outer other,
      (execute surroundings ⟨some (.check file), outer⟩).status.code = 0 →
        (execute surroundings ⟨some (.tokens file json), other⟩).status.code =
          0) ∧
    (∀ file json outer other failure,
      failure.error.category = .lexical ∨
          failure.error.category = .indentation →
        execute surroundings ⟨some (.check file), outer⟩ =
            .failed (.session failure) →
          execute surroundings ⟨some (.tokens file json), other⟩ =
            .failed (.session failure)) := by
  refine ⟨code_execute_eq_two_iff, code_execute_eq_zero_iff,
    code_execute_eq_one_iff, fun _ => stdout_execute_of_succeeds,
    stdout_execute_of_code_ne_zero, fun _ _ => rfl, ?_, ?_, ?_⟩
  · intro command outer other
    cases command <;> rfl
  · intro file json outer other passes
    exact code_tokens_of_code_check passes json other
  · intro file json outer other failure ofSource fails
    have notRefused : failure.error.category ≠ .parser := by
      rcases ofSource with lexical | indentation
      · rw [lexical]
        nofun
      · rw [indentation]
        nofun
    exact execute_tokens_of_execute_check fails notRefused json other

/-- A file that passes the check, and standard input that cannot be lexed. -/
def twoSources : Surroundings where
  stdin := "a\n@".toUTF8
  find path :=
    if path = "blocks" then
      .ok (.file ⟨9, .pure "if a:\n  b".toUTF8⟩)
    else
      .error .missing

theorem execute_honours_contract_two_sources :
    (execute twoSources ⟨some (.check "blocks"), none⟩).status.code = 0 ∧
    (execute twoSources ⟨some (.tokens "blocks" true), some "-"⟩).status.code =
      0 ∧
    (execute twoSources ⟨none, some "blocks"⟩).stdout =
      "blocks: ok (2 statements, max depth 1)\n" ∧
    execute twoSources ⟨some (.check "-"), none⟩ =
      .failed (.session ⟨"<stdin>", .lexical '@' 2 ⟨2, 3⟩⟩) ∧
    execute twoSources ⟨some (.tokens "-" false), none⟩ =
      .failed (.session ⟨"<stdin>", .lexical '@' 2 ⟨2, 3⟩⟩) := by
  have blocks : twoSources.Provides "blocks" ⟨"blocks", "if a:\n  b"⟩ :=
    .file (by decide) rfl (by decide) rfl
  have accepted : check "if a:\n  b" = .ok ⟨2, 1⟩ :=
    check_eq_ok_iff.mpr (by decide +kernel)
  have stray : twoSources.Provides "-" ⟨"<stdin>", "a\n@"⟩ :=
    .stdin (by decide +kernel) rfl
  have refused :
      check "a\n@" = .error (.lexical '@' 2 ⟨2, 3⟩) := by
    rw [check, inspect, Session.run, Session.drive_eq]
    decide +kernel
  have fails :
      execute twoSources ⟨some (.check "-"), none⟩ =
        .failed (.session ⟨"<stdin>", .lexical '@' 2 ⟨2, 3⟩⟩) :=
    Response.ofInput_eq_session_iff.mpr
      ⟨_, Surroundings.readInput_eq_ok_iff.mpr stray,
        Report.make_check_eq_error_iff.mpr ⟨_, refused, rfl⟩⟩
  obtain ⟨_, zero, _, stdout, _, alone, _, lists, same⟩ :=
    execute_honours_contract twoSources ⟨none, some "blocks"⟩
  have passes :
      (execute twoSources ⟨some (.check "blocks"), none⟩).status.code = 0 := by
    rw [← alone]
    exact zero.mpr ⟨_, .fileAlone blocks accepted⟩
  exact ⟨passes, lists "blocks" true none (some "-") passes,
    (stdout _ (.fileAlone blocks accepted)).trans (by decide +kernel), fails,
    same "-" false none none _ (.inl rfl) fails⟩

end CommandLine

end LayoutLexer
