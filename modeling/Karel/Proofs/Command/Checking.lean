import Mathlib.Data.List.Basic
import Karel.Command

/-!
# Checks of programs

A check goes through a list of programs, reports on one after the other, and counts those that do
not parse. It ends early at a program that cannot be read, and what it has printed by then stays.

## Main definitions

- `reportLines`, `reportText` — the report on a program, and on some programs
- `rejectedCount` — how many programs do not parse
- `summaryText` — what is said of that number in the end
- `noteText` — what is shown of some notes

## Main results

- `checkFrom_append` — a check that has some programs behind it
- `exists_readable` — where a check ends
- `runCommand_check` — a run of the program that checks some paths
- `check_reports_programs` — the output of a check
-/

namespace Karel

/-- The lines of the report on a program: that it parses, and its calls of procedures that it does
    not declare, or else what is wrong in it and on which line. -/
def reportLines (capabilities : Capabilities) (path source : String) : List String :=
  match parseProgram capabilities source with
  | .ok block =>
    s!"{path}: ok" :: block.undefinedCalls.map fun call =>
      s!"{path}:{call.2 + 1}: warning: call to undefined procedure \"{call.1}\""
  | .error error => [s!"{path}: {error.fault.message} line: {error.found.line + 1}"]

/-- The report on some programs, line by line. -/
def reportText (capabilities : Capabilities) (sources : List (String × String)) : String :=
  String.join <| (sources.flatMap fun source => reportLines capabilities source.1 source.2).map
    (· ++ "\n")

/-- The number of programs that do not parse. -/
def rejectedCount (capabilities : Capabilities) (sources : List (String × String)) : Nat :=
  sources.countP fun source => !(parseProgram capabilities source.2).isOk

/-- Programs with their paths and texts, as what is found of them where they can all be read. -/
def readable (sources : List (String × String)) : List (String × Except ReadFault String) :=
  sources.map fun source => (source.1, .ok source.2)

/-- What is said at the end of a check if some of the programs do not parse. -/
def summaryText (rejected total : Nat) : String :=
  s!"{rejected} of {total} programs failed to parse\n"

/-- What is noted in a check of so many programs when some of them have been read. -/
def checkEvents (capabilities : Capabilities) (total : Nat) (sources : List (String × String)) :
    List Event :=
  .checking total :: sources.flatMap fun source => parseEvents capabilities source.2

/-- What is shown of some notes at a log level. -/
def noteText (logLevel : String) (events : List Event) : String :=
  LogFilter.ignoredText logLevel ++ (LogFilter.ofText logLevel).text events

variable {capabilities : Capabilities} {sources others : List (String × String)}
  {path other : String} {programs rest more : List (String × Except ReadFault String)}
  {fault otherFault : ReadFault} {logLevel : String} {noted : List Event}

-- ════════════════════════════════════════════════════════════════════════
-- Reports
-- ════════════════════════════════════════════════════════════════════════

/-- The report of an error is what is wrong and on which line, counted from 1. -/
theorem ParseError.text_eq (error : ParseError) :
    error.text = s!"{error.fault.message} line: {error.found.line + 1}" :=
  rfl

theorem checkReport_eq (path source : String) :
    checkReport path (parseProgram capabilities source) =
      String.join ((reportLines capabilities path source).map (· ++ "\n")) := by
  rw [reportLines]
  cases parseProgram capabilities source with
  | ok block =>
    simp only [checkReport, List.map_cons, List.map_map, String.join_cons]
    congr 1
    · simp [String.append_assoc, toString]
    · congr 2
      funext call
      simp [String.append_assoc, toString]
  | error error => simp [checkReport, ParseError.text_eq, String.append_assoc, toString]

theorem reportText_cons (source : String × String) :
    reportText capabilities (source :: sources) =
      checkReport source.1 (parseProgram capabilities source.2) ++
        reportText capabilities sources := by
  rw [reportText, List.flatMap_cons, List.map_append, String.join_append, checkReport_eq]
  rfl

theorem rejectedCount_eq_zero_iff :
    rejectedCount capabilities sources = 0 ↔
      ∀ source ∈ sources, ∃ block, parseProgram capabilities source.2 = .ok block := by
  rw [rejectedCount, List.countP_eq_zero]
  refine forall₂_congr fun source _ => ?_
  cases parseProgram capabilities source.2 <;> simp [Except.isOk, Except.toBool]

-- ════════════════════════════════════════════════════════════════════════
-- Runs
-- ════════════════════════════════════════════════════════════════════════

namespace Outcome

theorem after_after (first second : List Event) (outcome : Outcome) :
    (outcome.after second).after first = outcome.after (first ++ second) := by
  simp [after]

theorem afterPrinting_afterPrinting (first second : String) (outcome : Outcome) :
    (outcome.afterPrinting second).afterPrinting first =
      outcome.afterPrinting (first ++ second) := by
  simp [afterPrinting, String.append_assoc]

theorem afterPrinting_after (text : String) (events : List Event) (outcome : Outcome) :
    (outcome.after events).afterPrinting text = (outcome.afterPrinting text).after events :=
  rfl

end Outcome

/-- A program that can be read is reported on and counted, and the check goes on. -/
theorem checkFrom_cons (total failed : Nat) (source : String × String) :
    checkFrom capabilities total failed ((source.1, .ok source.2) :: rest) =
      Outcome.after (parseEvents capabilities source.2) (Outcome.afterPrinting
        (checkReport source.1 (parseProgram capabilities source.2))
        (checkFrom capabilities total (failed + rejectedCount capabilities [source]) rest)) := by
  rw [checkFrom, rejectedCount, List.countP_singleton]
  cases parseProgram capabilities source.2 <;> rfl

/-- So are several programs that can be read. -/
theorem checkFrom_append (total failed : Nat) :
    checkFrom capabilities total failed (readable sources ++ rest) =
      Outcome.after (sources.flatMap fun source => parseEvents capabilities source.2)
        (Outcome.afterPrinting (reportText capabilities sources)
          (checkFrom capabilities total (failed + rejectedCount capabilities sources) rest)) := by
  induction sources generalizing failed with
  | nil => simp [readable, rejectedCount, reportText, Outcome.after, Outcome.afterPrinting]
  | cons source sources ih =>
    have hcount : rejectedCount capabilities (source :: sources) =
        rejectedCount capabilities [source] + rejectedCount capabilities sources := by
      rw [← List.singleton_append, rejectedCount, List.countP_append]
      rfl
    have hcons : readable (source :: sources) ++ rest =
        (source.1, .ok source.2) :: (readable sources ++ rest) := rfl
    rw [hcons, checkFrom_cons, ih, hcount, reportText_cons, List.flatMap_cons,
      Outcome.afterPrinting_after, Outcome.afterPrinting_afterPrinting, Outcome.after_after,
      Nat.add_assoc]

/-- Some programs can all be read, or there is a first one that cannot. -/
theorem exists_readable (programs : List (String × Except ReadFault String)) :
    ∃ sources, programs = readable sources ∨
      ∃ path fault rest, programs = readable sources ++ (path, .error fault) :: rest := by
  induction programs with
  | nil => exact ⟨[], .inl rfl⟩
  | cons program programs ih =>
    obtain ⟨path, found⟩ := program
    cases found with
    | error fault => exact ⟨[], .inr ⟨path, fault, programs, rfl⟩⟩
    | ok text =>
      obtain ⟨sources, rfl | ⟨other, fault, rest, rfl⟩⟩ := ih
      · exact ⟨(path, text) :: sources, .inl rfl⟩
      · exact ⟨(path, text) :: sources, .inr ⟨other, fault, rest, rfl⟩⟩

theorem readable_ne_append :
    readable sources ≠ readable others ++ (path, .error fault) :: rest := by
  intro h
  have hmem : (path, .error fault) ∈ readable sources := h ▸ by simp
  simp [readable] at hmem

/-- Programs that can be read are known from what is found of them. -/
theorem readable_injective : Function.Injective readable := by
  refine List.map_injective_iff.mpr fun first second h => ?_
  obtain ⟨hpath, htext⟩ := Prod.mk.inj h
  exact Prod.ext hpath (Except.ok.inj htext)

/-- So are those in front of the first one that cannot be read. -/
theorem eq_of_readable_append_eq (h : readable sources ++ (path, .error fault) :: rest =
    readable others ++ (other, .error otherFault) :: more) : sources = others := by
  have hfront (sources : List (String × String)) (path : String) (fault : ReadFault)
      (rest : List (String × Except ReadFault String)) :
      (readable sources ++ (path, .error fault) :: rest).takeWhile (fun program => program.2.isOk) =
        readable sources := by
    rw [List.takeWhile_append_of_pos, List.takeWhile_cons_of_neg, List.append_nil]
    · exact Bool.false_ne_true
    · exact List.forall_mem_map.mpr fun _ _ => rfl
  apply readable_injective
  rw [← hfront sources path fault rest, h, hfront]

-- ════════════════════════════════════════════════════════════════════════
-- Output
-- ════════════════════════════════════════════════════════════════════════

theorem indentLines_eq_self {text : String} (h : '\n' ∉ text.toList) (width : Nat) :
    Failure.indentLines width text = text := by
  have hchars : text.toList.flatMap (fun char =>
      if char = '\n' then '\n' :: List.replicate width ' ' else [char]) = text.toList := by
    rw [List.flatMap_congr (g := fun char => [char]), List.flatMap_singleton']
    intro char hmem
    rw [if_neg]
    rintro rfl
    exact h hmem
  rw [Failure.indentLines, hchars, String.ofList_toList]

theorem notMem_toList_reason (fault : ReadFault) : '\n' ∉ fault.reason.toList := by
  cases fault <;> simp [ReadFault.reason]

theorem notMem_toList_message (fault : ReadFault) : '\n' ∉ fault.message.toList := by
  unfold ReadFault.message
  simp [toString, notMem_toList_reason fault]

theorem causeLines_pair (first second : String) :
    Failure.causeLines [first, second] = ["    0: " ++ Failure.indentLines 7 first,
      "    1: " ++ Failure.indentLines 7 second] := by
  simp only [Failure.causeLines, List.mapIdx_cons, List.mapIdx_nil]
  rfl

/-- The report on a program that cannot be read. -/
theorem text_unreadable (context : String) (fault : ReadFault) :
    (Failure.unreadable context fault).text = s!"Error: {context}\n\nCaused by:\n" ++
      s!"    0: {fault.message}\n" ++ s!"    1: {fault.reason}\n" := by
  have hcauses : (Failure.unreadable context fault).causes = [fault.message, fault.reason] := rfl
  rw [Failure.text, hcauses, causeLines_pair, indentLines_eq_self (notMem_toList_message fault),
    indentLines_eq_self (notMem_toList_reason fault)]
  simp [Failure.unreadable, String.append_assoc, toString]

/-- A report on a program that cannot be read does not end like a summary. -/
theorem append_reason_ne (fault : ReadFault) (front other : String) (failed total : Nat) :
    front ++ s!"    1: {fault.reason}\n" ≠ other ++ summaryText failed total := by
  intro h
  have hchars := congrArg (fun text : String => (text.toList.reverse.drop 1).head?) h
  cases fault <;> simp [ReadFault.reason, summaryText, toString] at hchars

/-- The output of a check of programs that can all be read. -/
theorem output_readable :
    ((checkPrograms capabilities (readable sources)).after noted).output logLevel = {
      exitCode := if rejectedCount capabilities sources = 0 then 0 else 1
      stdout := reportText capabilities sources
      stderr := noteText logLevel (noted ++ checkEvents capabilities sources.length sources) ++
        if rejectedCount capabilities sources = 0 then "" else
          summaryText (rejectedCount capabilities sources) sources.length } := by
  have hlength : (readable sources).length = sources.length := List.length_map _
  have hrun : checkFrom capabilities sources.length 0 (readable sources ++ []) = _ :=
    checkFrom_append sources.length 0
  rw [List.append_nil, Nat.zero_add] at hrun
  rw [checkPrograms, hlength, hrun, Outcome.after_after, Outcome.after_after, checkFrom]
  split
  all_goals
    simp [Outcome.output, Outcome.after, Outcome.afterPrinting, Ending.exitCode, Ending.text,
      noteText, checkEvents, summaryText]

/-- The output of a check with a program that cannot be read behind some that can. -/
theorem output_unreadable
    (hprograms : programs = readable sources ++ (path, .error fault) :: rest) :
    ((checkPrograms capabilities programs).after noted).output logLevel = {
      exitCode := 1
      stdout := reportText capabilities sources
      stderr := noteText logLevel (noted ++ checkEvents capabilities programs.length sources) ++
        (Failure.unreadable s!"failed to read {path}" fault).text } := by
  rw [checkPrograms]
  generalize programs.length = total
  rw [hprograms, checkFrom_append, checkFrom]
  simp [Outcome.output, Outcome.fail, Outcome.after, Outcome.afterPrinting, Ending.exitCode,
    Ending.text, noteText, checkEvents]

/-- What a run of the program does that asks for a check of some paths. -/
theorem runCommand_check {files : Files} {stdin : ByteArray} {arguments paths : List String}
    {invocation : Invocation} (harguments : Demand.ofArguments arguments = .run invocation)
    (htask : invocation.task = .check paths)
    (hcapabilities : loadCapabilities files invocation.capabilities? = .ok capabilities) :
    runCommand files stdin arguments =
      ((checkPrograms capabilities (collectPrograms files paths)).after
        (invocation.capabilities?.toList.map Event.loaded)).output invocation.logLevel := by
  simp only [runCommand, harguments, Invocation.outcome, hcapabilities, htask, Task.outcome]

/-- A check reports on the programs that it has read, one after the other. If all of them can be
    read, it succeeds exactly if all of them parse, and otherwise says in the end how many of how
    many do not. If there is one that cannot be read, the check ends there without that summary. -/
theorem check_reports_programs (capabilities : Capabilities)
    (programs : List (String × Except ReadFault String)) (noted : List Event) (logLevel : String) :
    let output := ((checkPrograms capabilities programs).after noted).output logLevel
    ∃ sources, output.stdout = reportText capabilities sources ∧
      let notes := noteText logLevel (noted ++ checkEvents capabilities programs.length sources)
      (programs = readable sources ∧
        (output.exitCode = 0 ↔
          ∀ source ∈ sources, ∃ block, parseProgram capabilities source.2 = .ok block) ∧
        (output.exitCode = 0 → output.stderr = notes) ∧
        (output.exitCode ≠ 0 → output.exitCode = 1 ∧ output.stderr = notes ++
          summaryText (rejectedCount capabilities sources) sources.length)) ∨
      ∃ path fault rest, programs = readable sources ++ (path, .error fault) :: rest ∧
        output.exitCode = 1 ∧
        output.stderr = notes ++ (s!"Error: failed to read {path}\n\nCaused by:\n" ++
          s!"    0: {fault.message}\n" ++ s!"    1: {fault.reason}\n") ∧
        ∀ front failed total, output.stderr ≠ front ++ summaryText failed total := by
  intro output
  obtain ⟨sources, rfl | ⟨path, fault, rest, hprograms⟩⟩ := exists_readable programs
  · have houtput : output = _ := output_readable
    have hlength : (readable sources).length = sources.length := List.length_map _
    refine ⟨sources, congrArg Output.stdout houtput, .inl ⟨rfl, ?_⟩⟩
    rw [houtput, hlength, ← rejectedCount_eq_zero_iff]
    by_cases hcount : rejectedCount capabilities sources = 0
    · rw [if_pos hcount, if_pos hcount]
      exact ⟨iff_of_true rfl hcount, fun _ => String.append_empty, fun hcode => absurd rfl hcode⟩
    · rw [if_neg hcount, if_neg hcount]
      exact ⟨iff_of_false Nat.one_ne_zero hcount, fun hcode => absurd hcode Nat.one_ne_zero,
        fun _ => ⟨rfl, rfl⟩⟩
  · have houtput : output = _ := output_unreadable hprograms
    rw [text_unreadable] at houtput
    refine ⟨sources, congrArg Output.stdout houtput, .inr ⟨path, fault, rest, hprograms,
      congrArg Output.exitCode houtput, congrArg Output.stderr houtput, ?_⟩⟩
    intro front failed total h
    rw [houtput] at h
    exact append_reason_ne fault _ front failed total ((String.append_assoc ..).trans h)

/-- A warning, and two programs that do not parse. The summary says so if they are all there is,
    and not if another program is missing. What is behind that one is not reported on. -/
theorem check_reports_programs_with_faults :
    let sources := [("a", "jump\n"), ("b", "define foo\n  move\n"), ("c", "move\nif up:\n  move\n")]
    let report := "a: ok\na:1: warning: call to undefined procedure \"jump\"\n" ++
      "b: Expected a colon. line: 1\n" ++ "c: Unrecognized conditional expression \"up\". line: 2\n"
    let check programs := ((checkPrograms Capabilities.standard programs).after []).output ""
    let whole := check (readable sources)
    let broken := check (readable sources ++ [("d", .error .notFound), ("e", .ok "move\n")])
    whole.stdout = report ∧ whole.exitCode = 1 ∧
      (∃ notes, whole.stderr = notes ++ "2 of 3 programs failed to parse\n") ∧
    broken.stdout = report ∧ broken.exitCode = 1 := by
  intro sources report check whole broken
  have hreport : reportText Capabilities.standard sources = report := by decide +kernel
  have hsummary : summaryText (rejectedCount Capabilities.standard sources) sources.length =
      "2 of 3 programs failed to parse\n" := by decide +kernel
  have hrejected : ¬ ∀ source ∈ sources, ∃ block,
      parseProgram Capabilities.standard source.2 = .ok block := by
    intro h
    obtain ⟨block, hblock⟩ := h ("b", "define foo\n  move\n") (by simp [sources])
    cases hblock
  have hwhole : whole.stdout = report ∧ whole.exitCode = 1 ∧
      ∃ notes, whole.stderr = notes ++ "2 of 3 programs failed to parse\n" := by
    obtain ⟨others, hstdout, ⟨hothers, hcode, -, hstderr⟩ | ⟨path, fault, rest, hothers, -⟩⟩ :=
      check_reports_programs Capabilities.standard (readable sources) [] ""
    · obtain rfl := readable_injective hothers
      obtain ⟨hone, hstderr⟩ := hstderr (mt hcode.mp hrejected)
      exact ⟨hstdout.trans hreport, hone, _, hsummary ▸ hstderr⟩
    · exact absurd hothers readable_ne_append
  have hbroken : broken.stdout = report ∧ broken.exitCode = 1 := by
    obtain ⟨others, hstdout, ⟨hothers, -⟩ | ⟨path, fault, rest, hothers, hcode, -⟩⟩ :=
      check_reports_programs Capabilities.standard
        (readable sources ++ [("d", .error .notFound), ("e", .ok "move\n")]) [] ""
    · exact absurd hothers.symm readable_ne_append
    · obtain rfl := eq_of_readable_append_eq hothers
      exact ⟨hstdout.trans hreport, hcode⟩
  obtain ⟨hstdout, hcode, hstderr⟩ := hwhole
  exact ⟨hstdout, hcode, hstderr, hbroken⟩

end Karel
