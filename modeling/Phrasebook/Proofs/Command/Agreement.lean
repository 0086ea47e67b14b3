import Phrasebook.Proofs.Artifact.Rendering
import Phrasebook.Proofs.Command.Checks

/-!
The commands agree on the files that they can use: each of them prepares the catalog of a file, and
after that nothing is refused, since a script is always rendered under an accepted name.
-/

namespace Phrasebook.Command

open Artifact (Options isNamespace)

/-- A command may end with this outcome: run by itself, on a command line, or on a command line in
a folder. -/
inductive Ends : Source → Command → Outcome → Prop
  | alone (source command) : Ends source command (run source command)
  | asked {source command arguments environment verbose} :
      Invocation.read arguments environment = .ok ⟨command, verbose⟩ →
      Ends source command (runArguments source arguments environment)
  | inFolder {folder : Folder} {command arguments environment verbose} :
      Invocation.read arguments environment = .ok ⟨command, verbose⟩ →
      Ends folder.read command (runInFolder folder arguments environment)

section Endings

variable {arguments : List String} {environment : Environment}

theorem runArguments_eq {command : Command} {verbose : Bool}
    (asked : Invocation.read arguments environment = .ok ⟨command, verbose⟩) (source : Source) :
    ∃ complaint, runArguments source arguments environment =
      { run source command with complaint := complaint } := by
  unfold runArguments
  rw [asked]
  cases verbose with
  | false => exact ⟨_, rfl⟩
  | true => exact ⟨none, rfl⟩

theorem runInFolder_of_unwritten {folder : Folder}
    (unwritten : (runArguments folder.read arguments environment).file = none) :
    runInFolder folder arguments environment = runArguments folder.read arguments environment := by
  simp only [runInFolder, unwritten]

theorem runInFolder_of_written {folder : Folder} {written : String × String}
    (left : (runArguments folder.read arguments environment).file = some written) :
    (runInFolder folder arguments environment).code =
        (runArguments folder.read arguments environment).code ∨
      ((runInFolder folder arguments environment).code = failure ∧
        (runInFolder folder arguments environment).output = "" ∧
        (runInFolder folder arguments environment).file = none) := by
  obtain ⟨path, text⟩ := written
  simp only [runInFolder, left]
  by_cases nowhere : path = nullFile
  · rw [if_pos nowhere]
    exact .inl rfl
  · rw [if_neg nowhere]
    cases folder.writable? path with
    | some place => exact .inl rfl
    | none => exact .inr ⟨rfl, rfl, rfl⟩

/-- A command that writes no file shows the same wherever it is run; only a complaint in plain text
may be kept back. -/
theorem Ends.eq_run {source : Source} {command : Command} {outcome : Outcome}
    (ends : Ends source command outcome) (unwritten : (run source command).file = none) :
    ∃ complaint, outcome = { run source command with complaint := complaint } := by
  cases ends with
  | alone => exact ⟨_, rfl⟩
  | asked asked => exact runArguments_eq asked source
  | @inFolder folder _ _ _ _ asked =>
    obtain ⟨complaint, same⟩ := runArguments_eq asked folder.read
    rw [runInFolder_of_unwritten (by rw [same]; exact unwritten)]
    exact ⟨complaint, same⟩

end Endings

def scriptOf (source : Source) (path : String) (options : Options) : Except LoadError String := do
  let catalog ← load source path
  (Artifact.compile options catalog).mapError (.compile path)

variable {source : Source} {path : String}

theorem scriptOf_eq_ok_iff {options : Options} {script : String} :
    scriptOf source path options = .ok script ↔ ∃ catalog,
      load source path = .ok catalog ∧ Artifact.compile options catalog = .ok script := by
  simp only [scriptOf, bind_eq_ok_iff, mapError_eq_ok_iff]

/-- A prepared catalog is always rendered, so a build is refused only as the preparation is. -/
theorem scriptOf_eq (source : Source) (path : String) {options : Options}
    (accepted : isNamespace options.namespaceName = true) :
    ∃ script, scriptOf source path options = (loadPrepared source path).map script := by
  have always : ∀ resolver, ∃ script, Artifact.render options resolver = .ok script :=
    fun resolver => ⟨_, Artifact.render_eq resolver accepted⟩
  choose script rendered using always
  refine ⟨fun prepared => script prepared.2, ?_⟩
  unfold scriptOf loadPrepared Artifact.compile
  cases load source path with
  | error e => rfl
  | ok catalog =>
    simp only [bind, Except.bind]
    cases Artifact.prepare catalog with
    | error e => rfl
    | ok resolver =>
      simp only [rendered]
      rfl

theorem usable_iff_scriptOf {options : Options}
    (accepted : isNamespace options.namespaceName = true) :
    Usable source path ↔ ∃ script, scriptOf source path options = .ok script := by
  obtain ⟨script, same⟩ := scriptOf_eq source path accepted
  rw [same, Usable, exists_map_eq_ok_iff]

/-- A file that cannot be used is refused alike by every build and by its check. -/
theorem scriptOf_eq_error_iff {options : Options}
    (accepted : isNamespace options.namespaceName = true) (e : LoadError) :
    scriptOf source path options = .error e ↔ summarize source path = .error e := by
  obtain ⟨script, same⟩ := scriptOf_eq source path accepted
  rw [same, summarize_eq, map_eq_error_iff, map_eq_error_iff]

theorem runBuild_of_refused {options : Options} {e : LoadError}
    (refused : scriptOf source path options = .error e) (output : Option String) :
    runBuild source path output options = { code := failure, reports := [e.message] } := by
  unfold scriptOf at refused
  simp only [runBuild, refused]

theorem runBuild_of_script {options : Options} {script : String}
    (built : scriptOf source path options = .ok script) (output : Option String) :
    runBuild source path output options = match output with
      | some target => { code := success, file := some (target, script) }
      | none => { code := success, output := script } := by
  unfold scriptOf at built
  cases output with
  | none => simp only [runBuild, built]
  | some target => simp only [runBuild, built]

theorem runBuild_code_iff {options : Options}
    (accepted : isNamespace options.namespaceName = true) (output : Option String) :
    (runBuild source path output options).code = 0 ↔ Usable source path := by
  rw [usable_iff_scriptOf accepted]
  cases result : scriptOf source path options with
  | error e =>
    rw [runBuild_of_refused result]
    simp [failure]
  | ok script =>
    rw [runBuild_of_script result]
    cases output with
    | none => simp [success]
    | some target => simp [success]

theorem runEval_code_iff (text : String) (count : Option (String × UInt64))
    (parameters : List (String × String)) (json : Bool) :
    (runEval source path text count parameters json).code ≠ 70 ↔ Usable source path := by
  unfold runEval Usable
  cases loadPrepared source path with
  | error e => simp [failure]
  | ok prepared =>
    simp only [ne_eq, Except.ok.injEq, exists_eq', iff_true]
    split <;> simp [success, badData]

def Builds (source : Source) (path : String) : Prop :=
  ∀ {options built}, isNamespace options.namespaceName = true →
    Ends source (.build path none options) built → built.code = 0

def Refused (source : Source) (path report : String) : Prop :=
  ∀ {options built}, isNamespace options.namespaceName = true →
    Ends source (.build path none options) built → built.code = 70 ∧ built.reports = [report]

/-- Either the file can be built and this holds of its catalog, or it cannot and that holds of the
report of a build. -/
def Settled (source : Source) (path : String) (usable : Catalog → Resolver → Prop)
    (refused : String → Prop) : Prop :=
  (Builds source path ∧ ∃ catalog resolver, loadPrepared source path = .ok (catalog, resolver) ∧
    usable catalog resolver) ∨
  ∃ report, Refused source path report ∧ refused report

/-- The record of a file in JSON. Checked alone, the file has no other. -/
structure RecordOf (source : Source) (path : String) (record : Json) : Prop where
  states : Settled source path
    (fun _ resolver => record = .object [("path", .string path), ("ok", .bool true),
      ("messages", .integer resolver.catalog.size),
      ("plurals", .integer resolver.catalog.pluralCount)])
    (fun report => record = .object [("path", .string path), ("ok", .bool false),
      ("error", .string report)])
  alone {outcome} : Ends source (.check [path] true) outcome →
    Prints outcome.output (.array [record])

/-- What is told of a file: its row or its report. Checked alone, nothing else is told of it. -/
structure TellingOf (source : Source) (path : String) (telling : Row ⊕ String) : Prop where
  states : Settled source path
    (fun catalog resolver => telling = .inl [path, toString resolver.catalog.size,
      toString resolver.catalog.pluralCount,
      (((Plural.Declaration.ofMetadata? catalog.metadata).bind (·.forms)).map toString).getD "-",
      (resolver.rule.map toString).getD "n != 1"])
    (fun report => telling = .inr report)
  alone {outcome} : Ends source (.check [path] false) outcome → Tells [telling] outcome

structure Agreement (source : Source) : Prop where
  /-- A file that is built under an accepted name passes its check, and look-ups in it do not fail;
  and the other way round. -/
  usable {path options built} : isNamespace options.namespaceName = true →
    Ends source (.build path none options) built →
    (∀ {json checked}, Ends source (.check [path] json) checked →
      (built.code = 0 ↔ checked.code = 0)) ∧
    ∀ {text count parameters json evaluated},
      Ends source (.eval path text count parameters json) evaluated →
      (built.code = 0 ↔ evaluated.code ≠ 70)
  failed {path output options built} : Ends source (.build path output options) built →
    built.code ≠ 0 → built.code = 70 ∧ built.output = "" ∧ built.file = none
  printed {path options built} : Ends source (.build path none options) built →
    built.code = 0 → built.file = none ∧ ∃ catalog,
      load source path = .ok catalog ∧ Artifact.compile options catalog = .ok built.output
  /-- A list is bad data if and only if a file in it cannot be built. -/
  checked {files json checked} : Ends source (.check files json) checked →
    (checked.code = 65 ↔ ∃ path ∈ files, ∃ options built,
      isNamespace options.namespaceName = true ∧
      Ends source (.build path none options) built ∧ built.code = 70) ∧
    (checked.code = 0 ∨ checked.code = 65)
  recorded {files checked} : Ends source (.check files true) checked → ∃ records,
    List.Forall₂ (RecordOf source) files records ∧ Prints checked.output (.array records) ∧
    ((∀ path ∈ files, Countable source path) →
      Json.readWhole (Json.readValue Json.maxDepth) checked.output.toList = .ok (.array records))
  told {files checked} : Ends source (.check files false) checked → ∃ tellings,
    List.Forall₂ (TellingOf source) files tellings ∧ Tells tellings checked

theorem ends_build {options : Options} {outcome : Outcome}
    (ends : Ends source (.build path none options) outcome) :
    outcome.code = (runBuild source path none options).code ∧
      outcome.output = (runBuild source path none options).output ∧
      outcome.reports = (runBuild source path none options).reports ∧ outcome.file = none := by
  have unwritten : (runBuild source path none options).file = none := by
    cases result : scriptOf source path options with
    | error e => rw [runBuild_of_refused result]
    | ok script => rw [runBuild_of_script result]
  obtain ⟨complaint, rfl⟩ := ends.eq_run unwritten
  exact ⟨rfl, rfl, rfl, unwritten⟩

theorem ends_check {files : List String} {json : Bool} {outcome : Outcome}
    (ends : Ends source (.check files json) outcome) :
    outcome.code = (runCheck source files json).code ∧
      outcome.output = (runCheck source files json).output ∧
      outcome.reports = (runCheck source files json).reports := by
  obtain ⟨complaint, rfl⟩ := ends.eq_run (runCheck_file source files json)
  exact ⟨rfl, rfl, rfl⟩

theorem tells_of_ends {files : List String} {outcome : Outcome}
    (ends : Ends source (.check files false) outcome) :
    Tells (files.map (telling source)) outcome := by
  obtain ⟨_, output, reports⟩ := ends_check ends
  obtain ⟨shown, reported⟩ := tells_runCheck source files
  exact ⟨output ▸ shown, reports ▸ reported⟩

theorem ends_eval {text : String} {count : Option (String × UInt64)}
    {parameters : List (String × String)} {json : Bool} {outcome : Outcome}
    (ends : Ends source (.eval path text count parameters json) outcome) :
    outcome.code = (runEval source path text count parameters json).code := by
  have unwritten : (runEval source path text count parameters json).file = none := by
    unfold runEval
    split
    · rfl
    · simp only
      split <;> rfl
  obtain ⟨complaint, rfl⟩ := ends.eq_run unwritten
  rfl

/-- A build that does not succeed leaves nothing, also where only the writing fails. -/
theorem ends_failed_build {output : Option String} {options : Options} {outcome : Outcome}
    (ends : Ends source (.build path output options) outcome) (bad : outcome.code ≠ 0) :
    outcome.code = 70 ∧ outcome.output = "" ∧ outcome.file = none := by
  cases result : scriptOf source path options with
  | error e =>
    have refused := runBuild_of_refused result output
    obtain ⟨complaint, rfl⟩ := ends.eq_run (by rw [run, refused])
    simp only [run, refused, failure, and_self]
  | ok script =>
    have built := runBuild_of_script result output
    have good : (runBuild source path output options).code = 0 := by
      rw [built]
      cases output <;> rfl
    cases ends with
    | alone => exact absurd good bad
    | asked asked =>
      obtain ⟨complaint, same⟩ := runArguments_eq asked source
      rw [same] at bad
      exact absurd good bad
    | @inFolder folder _ arguments environment _ asked =>
      obtain ⟨complaint, same⟩ := runArguments_eq asked folder.read
      have code : (runArguments folder.read arguments environment).code = 0 := by
        rw [same]
        exact good
      cases left : (runArguments folder.read arguments environment).file with
      | none =>
        rw [runInFolder_of_unwritten left] at bad
        exact absurd code bad
      | some written =>
        rcases runInFolder_of_written left with kept | nothing
        · exact absurd (kept.trans code) bad
        · exact nothing

theorem builds_of_summarize {summary : Summary} (summarized : summarize source path = .ok summary) :
    Builds source path := by
  intro options built accepted ends
  rw [(ends_build ends).1, runBuild_code_iff accepted]
  exact usable_iff_summarize.2 ⟨summary, summarized⟩

theorem refused_of_summarize {e : LoadError} (summarized : summarize source path = .error e) :
    Refused source path e.message := by
  intro options built accepted ends
  obtain ⟨code, _, reports, _⟩ := ends_build ends
  have refused := runBuild_of_refused ((scriptOf_eq_error_iff accepted e).2 summarized) none
  rw [refused] at code reports
  exact ⟨code, reports⟩

theorem settled_of_summarize {usable : Catalog → Resolver → Prop} {refused : String → Prop}
    (ofUsable : ∀ catalog resolver,
      summarize source path = .ok (summaryOf path (catalog, resolver)) → usable catalog resolver)
    (ofRefused : ∀ e, summarize source path = .error e → refused e.message) :
    Settled source path usable refused := by
  cases summarized : summarize source path with
  | ok summary =>
    obtain ⟨⟨catalog, resolver⟩, loaded, rfl⟩ := summarize_eq_ok_iff.1 summarized
    exact .inl ⟨builds_of_summarize summarized, catalog, resolver, loaded,
      ofUsable catalog resolver summarized⟩
  | error e => exact .inr ⟨e.message, refused_of_summarize summarized, ofRefused e summarized⟩

section Settlements

variable {usable : Catalog → Resolver → Prop} {refused : String → Prop} {options : Options}
  {built : Outcome}

theorem Settled.of_success (settled : Settled source path usable refused)
    (accepted : isNamespace options.namespaceName = true)
    (ends : Ends source (.build path none options) built) (good : built.code = 0) :
    ∃ catalog resolver, loadPrepared source path = .ok (catalog, resolver) ∧
      usable catalog resolver := by
  rcases settled with ⟨_, holds⟩ | ⟨_, refuses, _⟩
  · exact holds
  · have bad := (refuses accepted ends).1
    rw [good] at bad
    cases bad

theorem Settled.of_failure (settled : Settled source path usable refused)
    (accepted : isNamespace options.namespaceName = true)
    (ends : Ends source (.build path none options) built) (bad : built.code ≠ 0) :
    ∃ report, built.reports = [report] ∧ refused report := by
  rcases settled with ⟨builds, _⟩ | ⟨report, refuses, holds⟩
  · exact absurd (builds accepted ends) bad
  · exact ⟨report, (refuses accepted ends).2, holds⟩

end Settlements

theorem recordOf_reportJson (source : Source) (path : String) :
    RecordOf source path (reportJson path (summarize source path)) where
  states := by
    refine settled_of_summarize (fun catalog resolver summarized => ?_) fun e summarized => ?_
    · rw [summarized]
      rfl
    · rw [summarized]
      rfl
  alone ends := by
    rw [(ends_check ends).2.1]
    exact prints_runCheck source [path]

theorem tellingOf_telling (source : Source) (path : String) :
    TellingOf source path (telling source path) where
  states := by
    refine settled_of_summarize (fun catalog resolver summarized => ?_) fun e summarized => ?_
    · rw [telling, summarized]
      rfl
    · rw [telling, summarized]
  alone := tells_of_ends

/-- Whatever the files hold, the commands agree on them. -/
theorem commands_agree (source : Source) : Agreement source where
  usable accepted built := by
    have code := (ends_build built).1
    refine ⟨fun checked => ?_, fun evaluated => ?_⟩
    · rw [code, (ends_check checked).1, runBuild_code_iff accepted, (runCheck_code_iff _ _ _).1]
      simp
    · rw [code, ends_eval evaluated, runBuild_code_iff accepted, runEval_code_iff]
  failed := ends_failed_build
  printed {path options built} ends good := by
    obtain ⟨code, output, _, file⟩ := ends_build ends
    refine ⟨file, ?_⟩
    cases result : scriptOf source path options with
    | error e =>
      rw [code, runBuild_of_refused result] at good
      cases good
    | ok script =>
      rw [output, runBuild_of_script result]
      exact scriptOf_eq_ok_iff.1 result
  checked {files json checked} ends := by
    obtain ⟨good, bad⟩ := runCheck_code_iff source files json
    rw [(ends_check ends).1, bad, good]
    refine ⟨?_, by simpa using Classical.em (∀ path ∈ files, Usable source path)⟩
    refine exists_congr fun path => and_congr_right fun _ => ?_
    constructor
    · intro unusable
      have accepted : isNamespace ({} : Options).namespaceName = true := by decide
      have bad := mt (runBuild_code_iff accepted none).1 unusable
      exact ⟨{}, _, accepted, .alone .., (ends_failed_build (.alone ..) bad).1⟩
    · rintro ⟨options, built, accepted, ended, code⟩ usable
      have good := (runBuild_code_iff accepted none).2 usable
      rw [← (ends_build ended).1, code] at good
      cases good
  recorded {files checked} ends := by
    rw [(ends_check ends).2.1]
    refine ⟨_, ?_, prints_runCheck source files, reads_runCheck source files⟩
    exact List.forall₂_map_right_iff.2 (List.forall₂_same.2 fun _ _ => recordOf_reportJson _ _)
  told {files checked} ends := by
    refine ⟨_, ?_, tells_of_ends ends⟩
    exact List.forall₂_map_right_iff.2 (List.forall₂_same.2 fun _ _ => tellingOf_telling _ _)

/-- One file that is whole, and one that breaks off. -/
theorem commands_agree_on_two :
    let source : Source := fun path =>
      if path = "a.po" then .ok "msgid \"a\"\nmsgstr \"b\"\n" else .ok "msgid"
    (runArguments source ["build", "a.po"] []).code = 0 ∧
      (runArguments source ["check", "a.po"] []).code = 0 ∧
      (runArguments source ["eval", "a.po", "--text", "a"] []).code ≠ 70 ∧
      (runArguments source ["check", "a.po", "b.po"] []).code = 65 ∧
      ∃ report, (runArguments source ["build", "b.po"] []).reports = [report] ∧
        Json.readWhole (Json.readValue Json.maxDepth)
          (runArguments source ["check", "a.po", "b.po", "--json"] []).output.toList =
          .ok (.array [
            .object [("path", .string "a.po"), ("ok", .bool true), ("messages", .integer 1),
              ("plurals", .integer 0)],
            .object [("path", .string "b.po"), ("ok", .bool false), ("error", .string report)]]) ∧
        Tells [.inl ["a.po", "1", "0", "-", "n != 1"], .inr report]
          (runArguments source ["check", "a.po", "b.po"] []) := by
  intro source
  have agreement := commands_agree source
  have accepted : isNamespace ({} : Options).namespaceName = true := by decide
  have build : Ends source (.build "a.po" none {}) (runArguments source ["build", "a.po"] []) :=
    .asked rfl
  have good : (runArguments source ["build", "a.po"] []).code = 0 := by decide +kernel
  have buildOther : Ends source (.build "b.po" none {})
      (runArguments source ["build", "b.po"] []) := .asked rfl
  have bad : (runArguments source ["build", "b.po"] []).code = 70 := by decide +kernel
  have unbuilt : (runArguments source ["build", "b.po"] []).code ≠ 0 := by
    rw [bad]
    decide
  have inJson : Ends source (.check ["a.po", "b.po"] true)
      (runArguments source ["check", "a.po", "b.po", "--json"] []) := .asked rfl
  have inTable : Ends source (.check ["a.po", "b.po"] false)
      (runArguments source ["check", "a.po", "b.po"] []) := .asked rfl
  obtain ⟨check, eval⟩ := agreement.usable accepted build
  obtain ⟨_, _ | ⟨record, _ | ⟨otherRecord, _ | _⟩⟩, _, read⟩ := agreement.recorded inJson
  obtain ⟨_, _ | ⟨telling, _ | ⟨otherTelling, _ | _⟩⟩, tells⟩ := agreement.told inTable
  obtain ⟨catalog, resolver, loaded, rfl⟩ := record.states.of_success accepted build good
  obtain ⟨report, reports, rfl⟩ := otherRecord.states.of_failure accepted buildOther unbuilt
  obtain ⟨_, _, again, rfl⟩ := telling.states.of_success accepted build good
  obtain ⟨_, same, rfl⟩ := otherTelling.states.of_failure accepted buildOther unbuilt
  cases loaded.symm.trans again
  cases reports.symm.trans same
  have holds : resolver.catalog.size = 1 ∧ resolver.catalog.pluralCount = 0 ∧
      (Plural.Declaration.ofMetadata? catalog.metadata).bind (·.forms) = none ∧
      resolver.rule.map toString = none := by
    have found : (loadPrepared source "a.po").toOption.map (fun prepared =>
        (prepared.2.catalog.size, prepared.2.catalog.pluralCount,
          (Plural.Declaration.ofMetadata? prepared.1.metadata).bind (·.forms),
          prepared.2.rule.map toString)) = some (1, 0, none, none) := by decide +kernel
    rw [loaded] at found
    simpa [Except.toOption] using found
  obtain ⟨messages, plurals, forms, rule⟩ := holds
  have countable : ∀ path ∈ ["a.po", "b.po"], Countable source path := by
    refine List.forall_mem_cons.2 ⟨?_, List.forall_mem_singleton.2 ?_⟩
    · intro _ _ prepared
      cases loaded.symm.trans prepared
      rw [messages]
      decide
    · intro _ _ prepared
      have refused : (loadPrepared source "b.po").toOption.isNone = true := by decide +kernel
      rw [prepared] at refused
      cases refused
  have checked : (runArguments source ["check", "a.po"] []).code = 0 :=
    (check (.asked rfl)).1 good
  refine ⟨good, checked, (eval (.asked rfl)).1 good, ?_, report, reports, ?_, ?_⟩
  · exact (agreement.checked inTable).1.2 ⟨"b.po", by simp, {}, _, accepted, buildOther, bad⟩
  · rw [read countable, messages, plurals]
    rfl
  · rw [messages, plurals, forms, rule] at tells
    exact tells

end Phrasebook.Command
