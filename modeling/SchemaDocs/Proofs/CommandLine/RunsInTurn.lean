import SchemaDocs.Proofs.CommandLine.RepeatedRun
/-!
# Both documents in turn

What follows the name of a command is read alike for all three commands.  They build the same
documents and prepare the same directory, so a run for both documents comes to the same as a run for
the page and one for the Markdown document after it, as long as the page is not put where the second
run reads.

* `parse_common`: what the same options come to after each command;
* `Command.run_both_iff`: the run for both documents and the two in turn;
* `succeeds_both_iff`, `execute_both_iff`: the command line for both documents and the two in turn.
-/

namespace SchemaDocs.CommandLine

open FileSystem (Puts)
open Results (forall₂_singleton_left_iff)

/-! ## The same options after each command -/

/-- The invocation of a command with options, and without an option of the program. -/
def Command.invocation (c : Command) (o : Options) : Invocation where
  verbose := false
  command := c
  options := o

section Switches

variable {α : Type} {switches : List (Switch α)}

theorem map_fst_of_classifyAll {arguments : List Text} {words : List (Argument α)}
    (h : classifyAll switches arguments = .ok words) : words.map Prod.fst = arguments := by
  induction arguments generalizing words with
  | nil =>
      cases h
      rfl
  | cons argument rest ih =>
      rw [classifyAll] at h
      by_cases hseparator : argument = "--"
      · rw [if_pos hseparator] at h
        cases h
        simp [Function.comp_def]
      · rw [if_neg hseparator] at h
        obtain ⟨word, -, h⟩ := Results.bind_eq_ok.mp h
        obtain ⟨others, hothers, h⟩ := Results.bind_eq_ok.mp h
        cases h
        rw [List.map_cons, ih hothers]

end Switches

section Words

variable {arguments : List Text} {words : List (Argument CommandOption)}
  (hwords : classifyAll commandSwitches arguments = .ok words)

include hwords

theorem readCommand_of_help
    (hhelp : ((readOptions commandSwitches false words).settings.any fun s => s.1 == .help) = true)
    (c : Command) : readCommand c arguments = .ok (.inl c.help) := by
  rw [readCommand, hwords]
  exact if_pos hhelp

variable (hhelp :
  ¬ ((readOptions commandSwitches false words).settings.any fun s => s.1 == .help) = true)

include hhelp

theorem readCommand_of_failed {error : UsageError}
    (hending : (readOptions commandSwitches false words).ending = .failed error) (c : Command) :
    readCommand c arguments = .error ⟨c.program, c.usage, error⟩ := by
  rw [readCommand, hwords]
  refine (if_neg hhelp).trans ?_
  rw [hending]
  rfl

theorem readCommand_of_ending
    (hending : ∀ error, (readOptions commandSwitches false words).ending ≠ .failed error)
    (c : Command) :
    readCommand c arguments =
      .ok (.inr ((readOptions commandSwitches false words).settings.foldl Options.apply {},
        (readOptions commandSwitches false words).unrecognized)) := by
  rw [readCommand, hwords]
  refine (if_neg hhelp).trans ?_
  cases hcase : (readOptions commandSwitches false words).ending with
  | failed error => exact absurd hcase (hending error)
  | atEnd => rfl
  | atValue rest => rfl

end Words

theorem readCommand_common (arguments : List Text) :
    (∃ o unrecognized, ∀ c, readCommand c arguments = .ok (.inr (o, unrecognized))) ∨
      (∀ c, ∃ text, readCommand c arguments = .ok (.inl text)) ∨
      ∀ c, ∃ refusal, readCommand c arguments = .error refusal := by
  cases hwords : classifyAll commandSwitches arguments with
  | error error =>
      refine .inr (.inr fun c => ⟨⟨c.program, c.usage, error⟩, ?_⟩)
      rw [readCommand, hwords]
      rfl
  | ok words =>
      by_cases hhelp : ((readOptions commandSwitches false words).settings.any
          fun s => s.1 == .help) = true
      · exact .inr (.inl fun c => ⟨c.help, readCommand_of_help hwords hhelp c⟩)
      · by_cases hending : ∀ error, (readOptions commandSwitches false words).ending ≠ .failed error
        · exact .inl ⟨_, _, readCommand_of_ending hwords hhelp hending⟩
        · obtain ⟨error, hfailed⟩ := not_forall_not.mp hending
          exact .inr (.inr fun c => ⟨_, readCommand_of_failed hwords hhelp hfailed c⟩)

/-- A command line that begins with a command: its arguments are looked at as options of the program
first, and then the command reads them. -/
theorem parse_command (c : Command) (options : List Text) :
    parse (c.name :: options) =
      match classifyAll programSwitches options with
      | .error error => .error ⟨programName, programUsage, error⟩
      | .ok _ =>
        match readCommand c options with
        | .error refusal => .error refusal
        | .ok (.inl text) => .ok (.help text)
        | .ok (.inr (o, unrecognized)) =>
          if unrecognized.isEmpty then .ok (.generate (c.invocation o))
          else .error ⟨programName, programUsage, .unrecognized unrecognized⟩ := by
  have hseparator : c.name ≠ "--" := by cases c <;> decide
  have hcommand : classify programSwitches c.name = .ok .value := by cases c <;> rfl
  have hname : Command.ofName? c.name = some c := by cases c <;> rfl
  cases hwords : classifyAll programSwitches options with
  | error error =>
      simp only [parse, classifyAll, hseparator, hcommand, hwords]
      rfl
  | ok words =>
      have harguments := map_fst_of_classifyAll hwords
      have hread : readOptions programSwitches true ((c.name, .value) :: words) =
          { ending := .atValue (c.name :: options) } := by
        rw [readOptions, if_pos rfl, harguments]
      have hall : classifyAll programSwitches (c.name :: options) =
          .ok ((c.name, .value) :: words) := by
        rw [classifyAll, if_neg hseparator, hcommand, hwords]
        rfl
      simp only [parse, hall, Except.mapError, bind, Except.bind, hread, hname, List.any_nil]
      cases hcases : readCommand c options with
      | error refusal => rfl
      | ok outcome =>
          cases outcome with
          | inl text => rfl
          | inr parts => rfl

/-- What comes after a command is refused, asks for help or gives options, and the command does not
matter for which of these it is. -/
theorem parse_common (options : List Text) :
    (∃ o, ∀ c : Command, parse (c.name :: options) = .ok (.generate (c.invocation o))) ∨
      (∀ c : Command, ∃ text, parse (c.name :: options) = .ok (.help text)) ∨
      ∀ c : Command, ∃ refusal, parse (c.name :: options) = .error refusal := by
  cases hwords : classifyAll programSwitches options with
  | error error => exact .inr (.inr fun c => ⟨_, by rw [parse_command, hwords]⟩)
  | ok words =>
      rcases readCommand_common options with ⟨o, unrecognized, h⟩ | h | h
      · by_cases hknown : unrecognized.isEmpty = true
        · refine .inl ⟨o, fun c => ?_⟩
          rw [parse_command, hwords, h]
          exact if_pos hknown
        · refine .inr (.inr fun c =>
            ⟨⟨programName, programUsage, .unrecognized unrecognized⟩, ?_⟩)
          rw [parse_command, hwords, h]
          exact if_neg hknown
      · refine .inr (.inl fun c => ?_)
        obtain ⟨text, htext⟩ := h c
        exact ⟨text, by rw [parse_command, hwords, htext]⟩
      · refine .inr (.inr fun c => ?_)
        obtain ⟨refusal, hrefusal⟩ := h c
        exact ⟨refusal, by rw [parse_command, hwords, hrefusal]⟩

/-! ## Runs in turn -/

/-- A run for both documents succeeds exactly if a run for the page does and one for the Markdown
document after it, and the files are the same then. -/
theorem Command.run_both_iff {o : Options} {files : FileSystem}
    (hspared : ∀ w, (Command.html.invocation o).run { files } = .ok () w →
      (Command.html.invocation o).SparesInputs files w.files) (result : FileSystem) :
    (∃ v, (Command.both.invocation o).run { files } = .ok () v ∧ v.files = result) ↔
      ∃ w x, (Command.html.invocation o).run { files } = .ok () w ∧
        (Command.markdown.invocation o).run { files := w.files } = .ok () x ∧
        x.files = result := by
  constructor
  · rintro ⟨v, hrun, rfl⟩
    obtain ⟨settings, d, u, puts, hbuilds, hprepare, hputs, rfl⟩ :=
      Invocation.run_eq_ok_iff.mp hrun
    obtain ⟨e, rest, hpage, hrest, rfl⟩ := List.forall₂_cons_left_iff.mp hputs
    obtain ⟨e', hdocument, rfl⟩ := forall₂_singleton_left_iff.mp hrest
    have hhtml := (Invocation.run_eq_ok_iff (i := Command.html.invocation o)).mpr
      ⟨settings, d, u, [e], hbuilds, hprepare, .cons hpage .nil, rfl⟩
    obtain ⟨hagain, hplaced⟩ := Invocation.prepared_after (i := Command.html.invocation o)
      (j := Command.markdown.invocation o) (v := { files := u.files.setFiles [e] }) rfl hbuilds
      hprepare (.cons hpage .nil) (hspared _ hhtml) rfl
    have hlater := hdocument.set hpage.free e.2
    exact ⟨_, _, hhtml, Invocation.run_eq_ok_iff.mpr
      ⟨settings, d, _, [e'], hagain, hplaced, .cons hlater .nil, rfl⟩, rfl⟩
  · rintro ⟨w, x, hhtml, hmarkdown, rfl⟩
    obtain ⟨settings, d, u, puts, hbuilds, hprepare, hputs, rfl⟩ :=
      Invocation.run_eq_ok_iff.mp hhtml
    obtain ⟨e, hpage, rfl⟩ := forall₂_singleton_left_iff.mp hputs
    obtain ⟨settings', d', y, puts', hbuilds', hprepare', hputs', rfl⟩ :=
      Invocation.run_eq_ok_iff.mp hmarkdown
    obtain ⟨hagain, hplaced⟩ := Invocation.prepared_after (i := Command.html.invocation o)
      (j := Command.markdown.invocation o) (v := { files := u.files.setFiles [e] }) rfl hbuilds
      hprepare hputs (hspared _ hhtml) rfl
    obtain ⟨rfl, rfl⟩ := hagain.unique hbuilds'
    rw [hplaced] at hprepare'
    cases hprepare'
    obtain ⟨e', hdocument, rfl⟩ := forall₂_singleton_left_iff.mp hputs'
    have hearlier := Puts.of_set hpage.free hdocument
    exact ⟨_, (Invocation.run_eq_ok_iff (i := Command.both.invocation o)).mpr
      ⟨settings, d, u, [e, e'], hbuilds, hprepare, .cons hpage (.cons hearlier .nil), rfl⟩, rfl⟩

/-! ## Command lines in turn -/

/-- Whether a command line ends with exit code 0, and with which files and directories. -/
def Succeeds (arguments : List Text) (files result : FileSystem) : Prop :=
  exitCode? (execute arguments files).1 = some 0 ∧ (execute arguments files).2 = result

section Outcomes

variable {arguments : List Text} {files result : FileSystem}

theorem succeeds_iff_run {i : Invocation} (hparse : parse arguments = .ok (.generate i)) :
    Succeeds arguments files result ↔ ∃ w, i.run { files } = .ok () w ∧ w.files = result := by
  constructor
  · rintro ⟨hexit, hfiles⟩
    obtain ⟨w, hrun, hw⟩ := run_of_exitCode_zero hparse hexit
    exact ⟨w, hrun, hw.symm.trans hfiles⟩
  · rintro ⟨w, hrun, hfiles⟩
    simp only [Succeeds, execute, hparse, Invocation.execute, hrun]
    exact ⟨rfl, hfiles⟩

theorem succeeds_iff_of_help {text : Text} (hparse : parse arguments = .ok (.help text)) :
    Succeeds arguments files result ↔ files = result := by
  rw [Succeeds, execute, hparse]
  exact and_iff_right rfl

theorem not_succeeds_of_refusal {refusal : Refusal} (hparse : parse arguments = .error refusal) :
    ¬ Succeeds arguments files result := by
  rw [Succeeds, execute, hparse]
  rintro ⟨hexit, -⟩
  cases hexit

end Outcomes

theorem succeeds_both_iff {options : List Text} {files : FileSystem}
    (hspared : ∀ i, parse (Command.html.name :: options) = .ok (.generate i) →
      i.SparesInputs files (execute (Command.html.name :: options) files).2)
    (result : FileSystem) :
    Succeeds (Command.both.name :: options) files result ↔
      ∃ between, Succeeds (Command.html.name :: options) files between ∧
        Succeeds (Command.markdown.name :: options) between result := by
  rcases parse_common options with ⟨o, hparse⟩ | hhelp | hrefused
  · have hspared : ∀ w, (Command.html.invocation o).run { files } = .ok () w →
        (Command.html.invocation o).SparesInputs files w.files := by
      intro w hrun
      have hhtml := (succeeds_iff_run (hparse .html)).mpr ⟨w, hrun, rfl⟩
      rw [← hhtml.2]
      exact hspared _ (hparse .html)
    simp only [succeeds_iff_run (hparse _), Command.run_both_iff hspared]
    constructor
    · rintro ⟨w, x, hhtml, hmarkdown, hfiles⟩
      exact ⟨w.files, ⟨w, hhtml, rfl⟩, x, hmarkdown, hfiles⟩
    · rintro ⟨_, ⟨w, hhtml, rfl⟩, x, hmarkdown, hfiles⟩
      exact ⟨w, x, hhtml, hmarkdown, hfiles⟩
  · obtain ⟨_, hboth⟩ := hhelp .both
    obtain ⟨_, hhtml⟩ := hhelp .html
    obtain ⟨_, hmarkdown⟩ := hhelp .markdown
    simp only [succeeds_iff_of_help hboth, succeeds_iff_of_help hhtml,
      succeeds_iff_of_help hmarkdown, exists_eq_left']
  · obtain ⟨_, hboth⟩ := hrefused .both
    obtain ⟨_, hhtml⟩ := hrefused .html
    refine iff_of_false (not_succeeds_of_refusal hboth) ?_
    rintro ⟨between, hpage, -⟩
    exact not_succeeds_of_refusal hhtml hpage

/-- The command for both documents ends with exit code 0 exactly if the one for the page does and,
with the same options and the files that are there then, the one for the Markdown document.  Both
ways end with the same files and directories.  What is supposed is that the page does not go to a
file that is read. -/
theorem execute_both_iff (options : List Text) (files : FileSystem)
    (hspared : ∀ i, parse (Command.html.name :: options) = .ok (.generate i) →
      i.SparesInputs files (execute (Command.html.name :: options) files).2) :
    (exitCode? (execute (Command.both.name :: options) files).1 = some 0 ↔
      exitCode? (execute (Command.html.name :: options) files).1 = some 0 ∧
      exitCode? (execute (Command.markdown.name :: options)
        (execute (Command.html.name :: options) files).2).1 = some 0) ∧
    (exitCode? (execute (Command.both.name :: options) files).1 = some 0 →
      (execute (Command.both.name :: options) files).2 =
        (execute (Command.markdown.name :: options)
          (execute (Command.html.name :: options) files).2).2) := by
  have hturns := succeeds_both_iff hspared
  constructor
  · constructor
    · intro hexit
      obtain ⟨_, ⟨hhtml, rfl⟩, hmarkdown, -⟩ := (hturns _).mp ⟨hexit, rfl⟩
      exact ⟨hhtml, hmarkdown⟩
    · rintro ⟨hhtml, hmarkdown⟩
      have hboth := (hturns _).mpr ⟨_, ⟨hhtml, rfl⟩, hmarkdown, rfl⟩
      exact hboth.1
  · intro hexit
    obtain ⟨_, ⟨-, rfl⟩, -, hfiles⟩ := (hturns _).mp ⟨hexit, rfl⟩
    exact hfiles.symm

theorem execute_both_iff_sameName :
    (∀ i, parse ["gen-html"] = .ok (.generate i) →
      i.SparesInputs sameNameFiles (execute ["gen-html"] sameNameFiles).2) ∧
    exitCode? (execute ["gen-docs"] sameNameFiles).1 = some 0 ∧
    (exitCode? (execute ["gen-docs"] sameNameFiles).1 = some 0 ↔
      exitCode? (execute ["gen-html"] sameNameFiles).1 = some 0 ∧
      exitCode? (execute ["gen-markdown"] (execute ["gen-html"] sameNameFiles).2).1 = some 0) ∧
    (exitCode? (execute ["gen-docs"] sameNameFiles).1 = some 0 →
      (execute ["gen-docs"] sameNameFiles).2 =
        (execute ["gen-markdown"] (execute ["gen-html"] sameNameFiles).2).2) := by
  have hspared : ∀ i, parse ["gen-html"] = .ok (.generate i) →
      i.SparesInputs sameNameFiles (execute ["gen-html"] sameNameFiles).2 := by
    intro i hparse
    have hpage : parse ["gen-html"] =
        .ok (.generate { plainInvocation with command := .html }) := by rfl
    rw [hpage] at hparse
    cases hparse
    exact sparesInputs_sameName .html _
  exact ⟨hspared, exitCode_sameName, execute_both_iff [] sameNameFiles hspared⟩

end SchemaDocs.CommandLine
