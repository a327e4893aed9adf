import OutlineWiki.Command.Outcome
import OutlineWiki.Proofs.Command.Files

/-!
The conversion of a tree from end to end.

A conversion reads its options, then its tree, and renders before it writes. There are
six ways for it to end, and only the last of them changes the files. What a conversion
promises is read off these ways, for all files and also where the paths are the same.
-/

namespace OutlineWiki

section

variable {σ ε α β : Type} {s after : σ}

theorem run_bind_ok {first : ExceptT ε (StateM σ) α} {next : α → ExceptT ε (StateM σ) β} {a : α}
    (h : first.run.run s = (.ok a, after)) :
    (first >>= next).run.run s = (next a).run.run after := by
  rw [ExceptT.run_bind, StateT.run_bind, h]
  rfl

theorem run_bind_error {first : ExceptT ε (StateM σ) α} {next : α → ExceptT ε (StateM σ) β}
    {error : ε} (h : first.run.run s = (.error error, after)) :
    (first >>= next).run.run s = (.error error, after) := by
  rw [ExceptT.run_bind, StateT.run_bind, h]
  rfl

theorem run_lift_bind {first : StateM σ α} {next : α → ExceptT ε (StateM σ) β} {a : α}
    (h : first.run s = (a, after)) :
    ((first : ExceptT ε (StateM σ) α) >>= next).run.run s = (next a).run.run after := by
  have hlift : (first : ExceptT ε (StateM σ) α).run.run s = (.ok a, after) := by
    change (first.run s >>= fun result => pure (Except.ok result.1, result.2)) = _
    rw [h]
    rfl
  exact run_bind_ok hlift

end

namespace Files

/-- The tree in the file that a path leads to. -/
def treeAt (files : Files) (path : String) : Except Failure Node :=
  match files.textAt path with
  | .error error => .error (.reading error)
  | .ok text => (Node.ofText text.toList).mapError .tree

/-- The options in a file, or the usual ones if no path is given. -/
def optionsAt (files : Files) : Option String → Except Failure Options
  | none => .ok {}
  | some path =>
    match files.textAt path with
    | .error error => .error (.reading error)
    | .ok text => (Options.ofText text.toList).mapError .options

variable (files : Files)

theorem run_readTree (path : String) :
    (readTree system path).run.run files = (files.treeAt path, files) := by
  rw [readTree, run_lift_bind (run_readText files path), treeAt]
  cases files.textAt path with
  | error error => rfl
  | ok text =>
    dsimp only
    cases Node.ofText text.toList <;> rfl

theorem run_readOptionsFile (path : String) :
    (readOptionsFile system path).run.run files = (files.optionsAt (some path), files) := by
  rw [readOptionsFile, run_lift_bind (run_readText files path), optionsAt]
  cases files.textAt path with
  | error error => rfl
  | ok text =>
    dsimp only
    cases Options.ofText text.toList <;> rfl

end Files

namespace ConvertArguments

/-- The options of a conversion: those it starts from, apart from the ones for which a
switch is given. -/
def chosen (asked : ConvertArguments) (base : Options) : Options :=
  { base with
    headlineStyle := if asked.underlined then .underlined else base.headlineStyle
    defaultTableClass :=
      if asked.noTableClass then none else asked.tableClass.or base.defaultTableClass
    withSmartQuotes := asked.smartQuotes || base.withSmartQuotes
    preserveBreaks := asked.preserveBreaks || base.preserveBreaks }

theorem overlay_eq_chosen (asked : ConvertArguments) (base : Options) :
    asked.overlay base = asked.chosen base := by
  obtain ⟨_, _, _, underlined, tableClass, noTableClass, smartQuotes, preserveBreaks, _⟩ := asked
  cases underlined <;> cases noTableClass <;> cases tableClass <;> cases smartQuotes <;>
    cases preserveBreaks <;> rfl

/-- The markup of a tree under the options of a conversion. -/
def markupOf? (asked : ConvertArguments) (base : Options) (root : Node) : Option (List Char) :=
  if asked.bodyOnly then root.bodyMarkup? (asked.chosen base)
  else root.wikiMarkup? (asked.chosen base)

/-- The files hold options and a tree for a conversion, and the tree has this markup. -/
structure Reads (asked : ConvertArguments) (files : Files) (base : Options) (root : Node)
    (markup : List Char) : Prop where
  options : files.optionsAt asked.config = .ok base
  tree : files.treeAt asked.input = .ok root
  markup : asked.markupOf? base root = some markup

/-- The ways in which a conversion can end: what it gives, and the files it leaves. -/
inductive Ends (asked : ConvertArguments) (files : Files) :
    Except Failure (List Char) → Files → Prop
  | noOptions {failure : Failure} (options : files.optionsAt asked.config = .error failure) :
    Ends asked files (.error failure) files
  | noTree {base : Options} {failure : Failure} (options : files.optionsAt asked.config = .ok base)
    (tree : files.treeAt asked.input = .error failure) : Ends asked files (.error failure) files
  | noMarkup {base : Options} {root : Node} (options : files.optionsAt asked.config = .ok base)
    (tree : files.treeAt asked.input = .ok root) (markup : asked.markupOf? base root = none) :
    Ends asked files (.error .circle) files
  | printed {base : Options} {root : Node} {markup : List Char}
    (reads : asked.Reads files base root markup) (output : asked.output = none) :
    Ends asked files (.ok markup) files
  | noOutput {base : Options} {root : Node} {markup : List Char} {path : String}
    {error : FileError} (reads : asked.Reads files base root markup)
    (output : asked.output = some path)
    (write : files.write path (String.ofList markup).toUTF8 = .error error) :
    Ends asked files (.error (.writing error)) files
  | written {base : Options} {root : Node} {markup : List Char} {path : String} {after : Files}
    (reads : asked.Reads files base root markup) (output : asked.output = some path)
    (write : files.write path (String.ofList markup).toUTF8 = .ok after) :
    Ends asked files (.ok ("✓ Converted to wiki markup: ".toList ++ path.toList ++ ['\n'])) after

/-! ### Every run ends in one of these ways -/

section

variable {asked : ConvertArguments} {files after : Files} {base : Options} {root : Node}
  {markup : List Char} {failure : Failure} {result : Except Failure (List Char)}

theorem run_options (asked : ConvertArguments) (files : Files) :
    (asked.options Files.system).run.run files =
      ((files.optionsAt asked.config).map asked.chosen, files) := by
  unfold options
  cases asked.config with
  | none =>
    rw [overlay_eq_chosen]
    rfl
  | some path =>
    have hread := files.run_readOptionsFile path
    cases hoptions : files.optionsAt (some path) with
    | error failure => exact run_bind_error (hoptions ▸ hread)
    | ok base =>
      refine (run_bind_ok (hoptions ▸ hread)).trans ?_
      rw [overlay_eq_chosen]
      rfl

/-- What comes of reading and rendering, in the order in which faults are reported. -/
def markupAt (asked : ConvertArguments) (files : Files) : Except Failure (List Char) :=
  match files.optionsAt asked.config with
  | .error failure => .error failure
  | .ok base =>
    match files.treeAt asked.input with
    | .error failure => .error failure
    | .ok root => (asked.markupOf? base root).elim (.error .circle) .ok

theorem run_markup (asked : ConvertArguments) (files : Files) :
    (asked.markup Files.system).run.run files = (asked.markupAt files, files) := by
  have hoptions := run_options asked files
  have hread := files.run_readTree asked.input
  unfold markupAt
  cases hbase : files.optionsAt asked.config with
  | error failure =>
    rw [hbase] at hoptions
    exact run_bind_error hoptions
  | ok base =>
    rw [hbase] at hoptions
    refine (run_bind_ok hoptions).trans ?_
    cases hroot : files.treeAt asked.input with
    | error failure => exact run_bind_error (hroot ▸ hread)
    | ok root =>
      refine (run_bind_ok (hroot ▸ hread)).trans ?_
      change (rendered (asked.markupOf? base root) :
        ExceptT Failure (StateM Files) (List Char)).run.run files = _
      dsimp only
      cases asked.markupOf? base root <;> rfl

theorem Reads.run (reads : asked.Reads files base root markup) :
    (asked.markup Files.system).run.run files = (.ok markup, files) := by
  simp [run_markup, markupAt, reads.options, reads.tree, reads.markup]

theorem Ends.run (h : asked.Ends files result after) :
    (asked.run Files.system).run.run files = (result, after) := by
  cases h with
  | noOptions options =>
    apply run_bind_error
    simp [run_markup, markupAt, options]
  | noTree options tree =>
    apply run_bind_error
    simp [run_markup, markupAt, options, tree]
  | noMarkup options tree markup =>
    apply run_bind_error
    simp [run_markup, markupAt, options, tree, markup]
  | printed reads output =>
    refine (run_bind_ok reads.run).trans ?_
    rw [output]
    rfl
  | @noOutput _ _ markup path error reads output write =>
    have hwrite : (Files.system.writeText path markup).run files = (.error error, files) := by
      rw [FileSystem.writeText, Files.run_write, write]
    refine (run_bind_ok reads.run).trans ?_
    rw [output]
    exact run_lift_bind hwrite
  | @written _ _ markup path after reads output write =>
    have hwrite : (Files.system.writeText path markup).run files = (.ok (), after) := by
      rw [FileSystem.writeText, Files.run_write, write]
    refine (run_bind_ok reads.run).trans ?_
    rw [output]
    exact run_lift_bind hwrite

/-- A conversion ends in some way, whatever the files hold. -/
theorem exists_ends (asked : ConvertArguments) (files : Files) :
    ∃ result after, asked.Ends files result after := by
  cases options : files.optionsAt asked.config with
  | error failure => exact ⟨_, _, .noOptions options⟩
  | ok base =>
    cases tree : files.treeAt asked.input with
    | error failure => exact ⟨_, _, .noTree options tree⟩
    | ok root =>
      cases markup : asked.markupOf? base root with
      | none => exact ⟨_, _, .noMarkup options tree markup⟩
      | some text =>
        cases output : asked.output with
        | none => exact ⟨_, _, .printed ⟨options, tree, markup⟩ output⟩
        | some path =>
          cases write : files.write path (String.ofList text).toUTF8 with
          | error error => exact ⟨_, _, .noOutput ⟨options, tree, markup⟩ output write⟩
          | ok after => exact ⟨_, _, .written ⟨options, tree, markup⟩ output write⟩

/-- How a conversion ends is settled by the files. -/
theorem Ends.unique {other : Except Failure (List Char)} {left : Files}
    (h : asked.Ends files result after) (hother : asked.Ends files other left) :
    result = other ∧ after = left :=
  Prod.mk.inj (h.run.symm.trans hother.run)

end

end ConvertArguments

/-! ### What a conversion promises -/

namespace Outcome

theorem status_of_ok (text : List Char) : (ofResult (.ok text)).status = 0 :=
  rfl

theorem status_of_error (failure : Failure) : (ofResult (.error failure)).status ≠ 0 := by
  simp [ofResult, failed]

end Outcome

namespace ConvertArguments

/-- The outcome of a conversion and the files that it leaves, as far as they are promised. -/
structure Converts (asked : ConvertArguments) (files : Files) (outcome : Outcome)
    (after : Files) : Prop where
  /-- When it fails, nothing is printed and no file has changed. -/
  failed : outcome.status ≠ 0 → outcome.printed = [] ∧ after = files
  /-- Faulty options are reported, whatever the tree is. -/
  faultyOptions : ∀ failure, files.optionsAt asked.config = .error failure →
    outcome = .failed failure
  faultyTree : ∀ base failure, files.optionsAt asked.config = .ok base →
    files.treeAt asked.input = .error failure → outcome = .failed failure
  faultyOutput : ∀ base root markup path error, asked.Reads files base root markup →
    asked.output = some path → files.write path (String.ofList markup).toUTF8 = .error error →
    outcome = .failed (.writing error)
  /-- When it succeeds, it gives the markup of the tree under the chosen options, which it
  would print without an output path, and puts it there and nowhere else. -/
  succeeded : outcome.status = 0 → ∃ base root markup, asked.Reads files base root markup ∧
    ((Invocation.convert { asked with output := none }).outcome Files.system).run files =
      (.success markup, files) ∧
    match asked.output with
    | none => outcome = .success markup ∧ after = files
    | some path => files.Written after path markup
  /-- It succeeds when there is nothing at fault. -/
  succeeds : ∀ base root markup, asked.Reads files base root markup →
    (∀ path, asked.output = some path →
      ∃ after, files.write path (String.ofList markup).toUTF8 = .ok after) →
    outcome.status = 0

variable {asked : ConvertArguments} {files after : Files} {base : Options} {root : Node}
  {markup : List Char} {result : Except Failure (List Char)}

theorem Ends.outcome (h : asked.Ends files result after) :
    ((Invocation.convert asked).outcome Files.system).run files = (.ofResult result, after) := by
  have hrun : ((Invocation.convert asked).run Files.system).run.run files = (result, after) := h.run
  rw [Invocation.outcome, StateT.run_bind, hrun]
  rfl

/-- Without an output path the same markup is printed. -/
theorem Reads.run_unwritten (reads : asked.Reads files base root markup) :
    ((Invocation.convert { asked with output := none }).outcome Files.system).run files =
      (.success markup, files) :=
  have hends : ({ asked with output := none } : ConvertArguments).Ends files (.ok markup) files :=
    .printed ⟨reads.options, reads.tree, reads.markup⟩ rfl
  hends.outcome

theorem Ends.converts (h : asked.Ends files result after) :
    asked.Converts files (.ofResult result) after where
  failed status := by
    cases h with
    | noOptions | noTree | noMarkup | noOutput => exact ⟨rfl, rfl⟩
    | printed | written => exact absurd (Outcome.status_of_ok _) status
  faultyOptions failure options := by
    rw [(h.unique (.noOptions options)).1, Outcome.ofResult]
  faultyTree base failure options tree := by
    rw [(h.unique (.noTree options tree)).1, Outcome.ofResult]
  faultyOutput base root markup path error reads output write := by
    rw [(h.unique (.noOutput reads output write)).1, Outcome.ofResult]
  succeeded status := by
    cases h with
    | noOptions | noTree | noMarkup | noOutput => exact absurd status (Outcome.status_of_error _)
    | printed reads output =>
      refine ⟨_, _, _, reads, reads.run_unwritten, ?_⟩
      rw [output]
      exact ⟨rfl, rfl⟩
    | written reads output write =>
      refine ⟨_, _, _, reads, reads.run_unwritten, ?_⟩
      rw [output]
      exact Files.written_of_write write
  succeeds base root markup reads writes := by
    cases output : asked.output with
    | none =>
      rw [(h.unique (.printed reads output)).1]
      exact Outcome.status_of_ok _
    | some path =>
      obtain ⟨left, write⟩ := writes path output
      rw [(h.unique (.written reads output write)).1]
      exact Outcome.status_of_ok _

end ConvertArguments

/-- A command that converts a tree keeps what a conversion promises, whatever the files hold
and wherever its paths lead. -/
theorem runCommand_converts {arguments : List String} {asked : ConvertArguments}
    (h : Invocation.ofArguments arguments = some (.convert asked)) (files : Files) :
    asked.Converts files ((runCommand Files.system arguments).run files).1
      ((runCommand Files.system arguments).run files).2 := by
  obtain ⟨result, after, hends⟩ := ConvertArguments.exists_ends asked files
  simp only [runCommand, h, hends.outcome]
  exact hends.converts

/-- The file of a tree is overwritten with the markup of the tree, under another spelling of
its path. -/
theorem runCommand_converts_inPlace :
    let arguments := ["convert", "--setext", "tree.json", "-o", "./tree.json"]
    let asked : ConvertArguments :=
      { input := "tree.json", output := some "./tree.json", underlined := true }
    let files : Files := ⟨[(["tree.json"],
      ("\x7b\"type\":\"document\",\"children\":[\x7b\"type\":\"headline\",\"level\":1," ++
        "\"title\":[\x7b\"type\":\"plain_text\",\"value\":\"top\"\x7d]\x7d]\x7d").toUTF8)]⟩
    let ended := (runCommand Files.system arguments).run files
    Invocation.ofArguments arguments = some (.convert asked) ∧
      asked.Converts files ended.1 ended.2 ∧ ended.1.status = 0 ∧
      (ended.2.textAt "tree.json").toOption = some "top\n===\n\n" :=
  ⟨by decide +kernel, runCommand_converts (by decide +kernel) _, by decide +kernel⟩

end OutlineWiki
