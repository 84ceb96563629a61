import Mathlib.Data.List.Perm.Basic
import ScimDirectory.Proofs.Schema.Placement
import ScimDirectory.Proofs.Validator.Selection

/-!
# What the validator reports

A run has two phases. In the first every selected file is decoded, and a file that holds no
declarations is reported and counted without keeping the others from being checked. In the second,
which is entered only without such files, one registry is built from all declarations in the order
of the files, and the first fault ends it. A run ends with the code zero exactly when the second
phase ends well: the validator accepts what the library accepts, and nothing else.

The report is said here on the files and the declarations that they hold. The summary of a resource
type is read off its declaration: what the registry counts in the tree that it built are the
declared paths of one segment.

The texts of a report are those of its two streams. How the lines of the one stand between those of
the other is not said. Neither is how a text that is no JSON is refused: these are the words of its
reader, and everything here holds of whatever words they are (`Setting.refusal`).

## Main results

* `Node.declarations_eq_ok_iff`: when a file holds declarations.
* `Validator.summary_resource`: the summary of a resource type, on its declaration.
* `Validator.reportFiles_exitCode_eq_zero_iff`: **the validator accepts what the library accepts.**
* `Validator.exitCode_run_eq_zero_iff`: when a run is successful.
* `Validator.run_reports`: the code a run ends with, and what it prints.
-/

namespace ScimDirectory

/-! ### Files and what they hold -/

namespace Node

/-- The node is a file with the bytes of a text, and the text loads as these declarations. -/
def Holds (node : Node) (declarations : List ResourceDeclaration) : Prop :=
  ∃ text : String, node = file (.ok text.toUTF8) ∧ loadDeclarations text = .ok declarations

/-- Why the node holds no declarations, if it holds none. -/
def fault? (node : Node) : Option FileError :=
  match node.declarations with
  | .ok _ => none
  | .error error => some error

end Node

/-- Bytes are read as the text that they encode, and other bytes as none. -/
theorem fromUTF8?_eq_some_iff {bytes : ByteArray} {text : String} :
    String.fromUTF8? bytes = some text ↔ bytes = text.toUTF8 := by
  rw [String.fromUTF8?]
  constructor
  · intro h
    split at h
    · obtain rfl := Option.some.inj h
      rfl
    · cases h
  · rintro rfl
    exact dif_pos text.isValidUTF8

namespace Node

variable {node : Node}

/-- **When a file holds declarations**: it can be read, as text, and the text loads. -/
theorem declarations_eq_ok_iff {declarations : List ResourceDeclaration} :
    node.declarations = .ok declarations ↔ node.Holds declarations := by
  constructor
  · intro h
    rcases node with (reason | bytes) | entries | reason
    · cases h
    · rw [Node.declarations] at h
      cases htext : String.fromUTF8? bytes with
      | none =>
          rw [htext] at h
          cases h
      | some text =>
          rw [htext] at h
          obtain rfl := fromUTF8?_eq_some_iff.mp htext
          exact ⟨text, rfl, mapError_eq_ok_iff.mp h⟩
    · cases h
    · cases h
  · rintro ⟨text, rfl, hload⟩
    rw [Node.declarations, fromUTF8?_eq_some_iff.mpr rfl]
    exact mapError_eq_ok_iff.mpr hload

/-- A file without a fault holds declarations. -/
theorem fault?_eq_none_iff : node.fault? = none ↔ ∃ declarations, node.Holds declarations := by
  simp only [← declarations_eq_ok_iff, fault?]
  cases node.declarations with
  | ok declarations => exact iff_of_true rfl ⟨declarations, rfl⟩
  | error error => exact iff_of_false (by rintro ⟨⟩) (by rintro ⟨_, ⟨⟩⟩)

end Node

/-! ### Streams -/

/-- The text of some lines, each with its line feed. -/
def unlines (lines : List String) : String :=
  String.join (lines.map (· ++ "\n"))

/-- What a line shows on the standard output. -/
def Line.out? : Line → Option String
  | out text => some text
  | err _ => none

/-- What a line shows on the standard error. -/
def Line.err? : Line → Option String
  | out _ => none
  | err text => some text

namespace Report

theorem stdout_eq (report : Report) : report.stdout = unlines (report.lines.filterMap Line.out?) :=
  rfl

theorem stderr_eq (report : Report) : report.stderr = unlines (report.lines.filterMap Line.err?) :=
  rfl

end Report

/-! ### Texts of a report -/

/-- The declared paths of one segment. -/
def ResourceDeclaration.topLevel (declaration : ResourceDeclaration) : List AttributeDeclaration :=
  declaration.attributes.filter fun a => a.segments.length = 1

/-- The summary of a declared resource type: how many attributes it has and how many of them are
complex or stored under another name, its name attribute if it has one, and its extensions with the
numbers of their fields. -/
def ResourceDeclaration.summaryTexts (declaration : ResourceDeclaration) : List String :=
  let attributes := declaration.topLevel
  let complex := attributes.countP fun a => a.type = .complex
  let aliased := attributes.countP fun a => a.path ≠ a.backendName
  let nameTexts := declaration.nameAttribute.toList.map fun name =>
    s!"  Name attribute: {name} (identifier stored as '{declaration.identifier}')"
  ["", s!"{declaration.name} ({declaration.schema})",
    s!"  Attributes: {attributes.length} ({complex} complex, {aliased} aliased)"] ++
  nameTexts ++
  [s!"  Extensions: {declaration.extensions.length}"] ++
  declaration.extensions.map fun extension =>
    s!"    - {extension.urn} ({extension.fields.length} fields)"

namespace Validator

/-- The text for a file that is looked at. -/
def validatingText (file : String × Node) : String :=
  s!"Validating: {file.1}"

/-- The text for the declarations that a file holds. -/
def parsedText (declarations : List ResourceDeclaration) : String :=
  s!"  ✓ Parsed {declarations.length} declaration(s)"

/-- The text for a file that holds no declarations. -/
def faultText (setting : Setting) (error : FileError) : String :=
  s!"  ❌ Invalid - {error.message setting.refusal}"

/-- The texts for files and the declarations that they hold. -/
def heldTexts (files : List (String × Node)) (lists : List (List ResourceDeclaration)) :
    List String :=
  (files.zip lists).flatMap fun held => [validatingText held.1, parsedText held.2]

/-- The texts for files some of which hold no declarations. -/
def checkedTexts (files : List (String × Node)) : List String :=
  files.flatMap fun file =>
    validatingText file :: (file.2.declarations.toOption.toList.map parsedText)

/-- The faults of the files that hold no declarations, in the order of the files. -/
def faults (files : List (String × Node)) : List FileError :=
  files.filterMap fun file => file.2.fault?

/-- The text that announces the second phase. -/
def buildingTexts : List String :=
  ["", "Building schema registry..."]

end Validator

/-- **The report on faults**: one text for each of the files that hold no declarations, in their
order, and the number of these files. Nothing is built. -/
structure Report.ListsFaults (report : Report) (setting : Validator.Setting)
    (files : List (String × Node)) : Prop where
  exitCode : report.exitCode = 1
  stdout : report.stdout = unlines (Validator.checkedTexts files)
  stderr : report.stderr = unlines ((Validator.faults files).map (Validator.faultText setting) ++
    ["", s!"{(Validator.faults files).length} file(s) could not be decoded"])

/-- **The report on declarations**: how many of them each file holds, and then one summary for each,
in their order, if they build a registry. Otherwise it ends with what was wrong. -/
structure Report.SumsUp (report : Report) (files : List (String × Node))
    (lists : List (List ResourceDeclaration)) : Prop where
  built : ∀ registry, Registry.build lists.flatten = .ok registry →
    report.exitCode = 0 ∧
    report.stdout = unlines (Validator.heldTexts files lists ++ Validator.buildingTexts ++
      "✓ Schema registry built successfully" ::
        lists.flatten.flatMap ResourceDeclaration.summaryTexts) ∧
    report.stderr = ""
  refused : ∀ error, Registry.build lists.flatten = .error error →
    report.exitCode = 1 ∧
    report.stdout = unlines (Validator.heldTexts files lists ++ Validator.buildingTexts) ∧
    report.stderr = unlines [s!"❌ Failed to build schema registry: {error.message}"]

namespace Validator

/-! ### Summaries -/

/-- The attributes of a schema are the declared paths of one segment. -/
theorem toList_attributes_resource (declaration : ResourceDeclaration) :
    declaration.resource.attributes.toList =
      declaration.topLevel.map (attributeOf declaration.attributes) := by
  rw [ResourceDeclaration.resource, Catalog.toList_ofList, attributesOf,
    ResourceDeclaration.topLevel, filter_length_segments]

/-- **The summary of a resource type**, on its declaration. -/
theorem summary_resource (declaration : ResourceDeclaration) :
    summary declaration.resource = declaration.summaryTexts.map Line.out := by
  have hcomplex : (declaration.resource.attributes.toList.countP fun a => a.isComplex) =
      declaration.topLevel.countP fun a => a.type = .complex := by
    rw [toList_attributes_resource, List.countP_map]
    rfl
  have haliased : (declaration.resource.attributes.toList.countP fun a => a.isAliased) =
      declaration.topLevel.countP fun a => a.path ≠ a.backendName := by
    rw [toList_attributes_resource, List.countP_map]
    refine List.countP_congr fun a ha => ?_
    have hdot : '.' ∉ a.path.toList :=
      AttributeDeclaration.length_segments_eq_one_iff.mp
        (of_decide_eq_true (List.mem_filter.mp ha).2)
    change decide (a.leaf ≠ a.backendName) = true ↔ _
    rw [AttributeDeclaration.leaf_of_simple hdot]
  simp only [summary, hcomplex, haliased, ResourceDeclaration.summaryTexts]
  rw [toList_attributes_resource, List.length_map]
  rcases hname : declaration.nameAttribute with _ | name <;>
    simp [ResourceDeclaration.resource, hname, ExtensionDeclaration.extension]

/-- The summaries of a registry are those of its declarations, in their order. -/
theorem flatMap_summary {declarations : List ResourceDeclaration} {registry : Registry}
    (h : Registry.build declarations = .ok registry) :
    registry.resourceTypes.flatMap summary =
      (declarations.flatMap ResourceDeclaration.summaryTexts).map Line.out := by
  rw [Registry.resourceTypes_of_build h, List.flatMap_map, List.map_flatMap]
  exact congrArg (List.flatMap · declarations) (funext summary_resource)

/-- Lines for the standard output show their texts there. -/
theorem filterMap_out?_map (texts : List String) :
    (texts.map Line.out).filterMap Line.out? = texts := by
  rw [List.filterMap_map]
  exact List.filterMap_some

/-- Lines for the standard output show nothing on the other stream. -/
theorem filterMap_err?_map (texts : List String) :
    (texts.map Line.out).filterMap Line.err? = [] := by
  rw [List.filterMap_map]
  exact List.filterMap_none texts

/-! ### The first phase -/

section Files

variable {setting : Setting} {files : List (String × Node)}
  {lists : List (List ResourceDeclaration)}

/-- The files with what became of them. -/
def results (files : List (String × Node)) :
    List (String × Except FileError (List ResourceDeclaration)) :=
  files.map fun file => (file.1, file.2.declarations)

/-- The lines of the first phase. -/
def checkedLines (setting : Setting) (files : List (String × Node)) : List Line :=
  (results files).flatMap fun file => fileLines setting file.1 file.2

/-- Every file with a fault is counted. -/
theorem failures_eq (files : List (String × Node)) :
    failures (results files) = (faults files).length := by
  rw [failures, results, List.countP_map, faults, List.length_filterMap_eq_countP]
  refine List.countP_congr fun file _ => ?_
  rw [Function.comp_apply, Node.fault?]
  cases file.2.declarations with
  | ok declarations => exact Iff.rfl
  | error error => exact Iff.rfl

/-- Without faults there is a list of declarations for each file. -/
theorem faults_eq_nil_iff :
    faults files = [] ↔ ∃ lists, List.Forall₂ (fun file list => file.2.Holds list) files lists := by
  rw [faults, List.filterMap_eq_nil_iff]
  simp only [Node.fault?_eq_none_iff]
  constructor
  · intro h
    induction files with
    | nil => exact ⟨[], .nil⟩
    | cons file files ih =>
        obtain ⟨hfile, hfiles⟩ := List.forall_mem_cons.mp h
        obtain ⟨list, hlist⟩ := hfile
        obtain ⟨lists, hlists⟩ := ih hfiles
        exact ⟨list :: lists, .cons hlist hlists⟩
  · rintro ⟨lists, h⟩
    induction h with
    | nil => exact List.forall_mem_nil _
    | @cons _ list _ _ hlist _ ih => exact List.forall_mem_cons.mpr ⟨⟨list, hlist⟩, ih⟩

/-- The declarations that go into the registry are those that the files hold, in their order. -/
theorem decoded_eq (h : List.Forall₂ (fun file list => file.2.Holds list) files lists) :
    decoded (results files) = lists.flatten := by
  induction h with
  | nil => rfl
  | cons hlist _ ih =>
      rw [results, List.map_cons, decoded, List.flatMap_cons, Node.declarations_eq_ok_iff.mpr hlist,
        List.flatten_cons]
      exact congrArg (_ ++ ·) ih

/-- What is shown of files that all hold declarations. -/
theorem checkedTexts_eq (h : List.Forall₂ (fun file list => file.2.Holds list) files lists) :
    checkedTexts files = heldTexts files lists := by
  induction h with
  | nil => rfl
  | cons hlist _ ih =>
      rw [checkedTexts, List.flatMap_cons, Node.declarations_eq_ok_iff.mpr hlist, heldTexts,
        List.zip_cons_cons, List.flatMap_cons]
      exact congrArg (_ ++ ·) ih

/-- The lines of the first phase on the standard output. -/
theorem filterMap_out?_checkedLines (setting : Setting) (files : List (String × Node)) :
    (checkedLines setting files).filterMap Line.out? = checkedTexts files := by
  rw [checkedLines, results, List.flatMap_map, List.filterMap_flatMap, checkedTexts]
  refine congrArg (List.flatMap · files) (funext fun file => ?_)
  cases file.2.declarations with
  | ok declarations => rfl
  | error error => rfl

/-- The lines of the first phase on the standard error. -/
theorem filterMap_err?_checkedLines (setting : Setting) (files : List (String × Node)) :
    (checkedLines setting files).filterMap Line.err? =
      (faults files).map (faultText setting) := by
  rw [checkedLines, results, List.flatMap_map, List.filterMap_flatMap, faults,
    List.filterMap_eq_flatMap_toList, List.map_flatMap]
  refine congrArg (List.flatMap · files) (funext fun file => ?_)
  rw [Node.fault?]
  cases file.2.declarations with
  | ok declarations => rfl
  | error error => rfl

/-- **Files with faults are all reported**, and nothing is built. -/
theorem reportFiles_listsFaults (h : faults files ≠ []) :
    (reportFiles setting files).ListsFaults setting files := by
  have hsome : ¬ (faults files).length = 0 := mt List.eq_nil_of_length_eq_zero h
  have hreport : reportFiles setting files =
      { lines := checkedLines setting files ++
          [.err "", .err s!"{(faults files).length} file(s) could not be decoded"]
        exitCode := 1 } := by
    rw [← failures_eq] at hsome ⊢
    exact if_neg hsome
  constructor
  · rw [hreport]
  · rw [Report.stdout_eq, hreport, List.filterMap_append, filterMap_out?_checkedLines]
    exact congrArg unlines (List.append_nil _)
  · rw [Report.stderr_eq, hreport, List.filterMap_append, filterMap_err?_checkedLines]
    rfl

/-! ### The second phase -/

/-- The report on declarations that build a registry. -/
theorem registryReport_of_ok {declarations : List ResourceDeclaration} {registry : Registry}
    (h : Registry.build declarations = .ok registry) :
    registryReport declarations =
      { lines := (buildingTexts ++ "✓ Schema registry built successfully" ::
          declarations.flatMap ResourceDeclaration.summaryTexts).map Line.out
        exitCode := 0 } := by
  simp only [registryReport, h, flatMap_summary h]
  rfl

/-- The report on declarations that build none. -/
theorem registryReport_of_error {declarations : List ResourceDeclaration} {error : BuildError}
    (h : Registry.build declarations = .error error) :
    registryReport declarations =
      { lines := buildingTexts.map Line.out ++
          [.err s!"❌ Failed to build schema registry: {error.message}"]
        exitCode := 1 } := by
  simp only [registryReport, h]
  rfl

/-- **Files without faults are summed up.** -/
theorem reportFiles_sumsUp (setting : Setting)
    (h : List.Forall₂ (fun file list => file.2.Holds list) files lists) :
    (reportFiles setting files).SumsUp files lists := by
  have hnone : faults files = [] := faults_eq_nil_iff.mpr ⟨lists, h⟩
  have hreport : reportFiles setting files = { registryReport lists.flatten with
      lines := checkedLines setting files ++ (registryReport lists.flatten).lines } := by
    have hzero : failures (results files) = 0 := by
      rw [failures_eq, hnone, List.length_nil]
    rw [← decoded_eq h]
    exact if_pos hzero
  have hout : (reportFiles setting files).stdout = unlines (heldTexts files lists ++
      (registryReport lists.flatten).lines.filterMap Line.out?) := by
    rw [Report.stdout_eq, hreport, List.filterMap_append, filterMap_out?_checkedLines,
      checkedTexts_eq h]
  have herr : (reportFiles setting files).stderr = unlines
      ((registryReport lists.flatten).lines.filterMap Line.err?) := by
    rw [Report.stderr_eq, hreport, List.filterMap_append, filterMap_err?_checkedLines, hnone]
    rfl
  constructor
  · intro registry hbuild
    rw [registryReport_of_ok hbuild] at hreport hout herr
    refine ⟨?_, ?_, ?_⟩
    · rw [hreport]
    · rw [hout, filterMap_out?_map, List.append_assoc]
    · rw [herr, filterMap_err?_map]
      rfl
  · intro error hbuild
    rw [registryReport_of_error hbuild] at hreport hout herr
    refine ⟨?_, ?_, ?_⟩
    · rw [hreport]
    · rw [hout, List.filterMap_append, filterMap_out?_map]
      rfl
    · rw [herr, List.filterMap_append, filterMap_err?_map]
      rfl

/-- A report on files ends with the code one, or the files are accepted. -/
theorem reportFiles_exitCode (setting : Setting) (files : List (String × Node)) :
    (reportFiles setting files).exitCode = 1 ∨ (reportFiles setting files).exitCode = 0 ∧
      ∃ lists registry, List.Forall₂ (fun file list => file.2.Holds list) files lists ∧
        Registry.build lists.flatten = .ok registry := by
  by_cases hfaults : faults files = []
  · obtain ⟨lists, hlists⟩ := faults_eq_nil_iff.mp hfaults
    have hreport := reportFiles_sumsUp setting hlists
    cases hbuild : Registry.build lists.flatten with
    | ok registry =>
        exact .inr ⟨(hreport.built registry hbuild).1, lists, registry, hlists, hbuild⟩
    | error error => exact .inl (hreport.refused error hbuild).1
  · exact .inl (reportFiles_listsFaults hfaults).exitCode

/-- **The validator accepts what the library accepts**: files that all hold declarations, if these
build a registry in the order of the files. -/
theorem reportFiles_exitCode_eq_zero_iff :
    (reportFiles setting files).exitCode = 0 ↔
      ∃ lists registry, List.Forall₂ (fun file list => file.2.Holds list) files lists ∧
        Registry.build lists.flatten = .ok registry := by
  constructor
  · intro hzero
    rcases reportFiles_exitCode setting files with hone | ⟨-, haccepted⟩
    · omega
    · exact haccepted
  · rintro ⟨lists, registry, hlists, hbuild⟩
    exact ((reportFiles_sumsUp setting hlists).built registry hbuild).1

/-- The order of the files does not matter to whether they are accepted. -/
theorem exitCode_eq_zero_of_perm {chosen : List (String × Node)} (h : chosen.Perm files)
    (hzero : (reportFiles setting files).exitCode = 0) :
    (reportFiles setting chosen).exitCode = 0 := by
  obtain ⟨lists, registry, hlists, hbuild⟩ := reportFiles_exitCode_eq_zero_iff.mp hzero
  obtain ⟨lists', hlists', hperm⟩ := List.perm_comp_forall₂ h hlists
  obtain ⟨registry', hbuild'⟩ := Registry.exists_build_of_perm hperm.symm.flatten hbuild
  exact reportFiles_exitCode_eq_zero_iff.mpr ⟨lists', registry', hlists', hbuild'⟩

end Files

/-! ### Runs -/

section Run

variable {arguments : List String} {find? : String → Option Node} {setting : Setting}

/-- **What a run can do**: report the files that its argument selects, or end with the code one. -/
theorem run_cases (arguments : List String) (find? : String → Option Node) (setting : Setting) :
    (∃ argument node files, arguments.head? = some argument ∧ find? argument = some node ∧
        selected argument node = .ok files ∧
        run arguments find? setting = reportFiles setting files) ∨
      (run arguments find? setting).exitCode = 1 ∧
        ∀ argument node files, arguments.head? = some argument → find? argument = some node →
          selected argument node ≠ .ok files := by
  cases arguments with
  | nil => exact .inr ⟨rfl, by rintro _ _ _ ⟨⟩⟩
  | cons argument more =>
      rw [run]
      cases hnode : find? argument with
      | none =>
          refine .inr ⟨rfl, ?_⟩
          rintro _ node _ ⟨⟩ hfound
          rw [hnode] at hfound
          cases hfound
      | some node =>
          cases hfiles : selected argument node with
          | ok files =>
              exact .inl ⟨argument, node, files, rfl, hnode, hfiles, by simp only [hfiles]⟩
          | error reason =>
              refine .inr ⟨by simp only [hfiles], ?_⟩
              rintro _ node' files ⟨⟩ hfound
              rw [hnode] at hfound
              obtain rfl := Option.some.inj hfound
              rw [hfiles]
              rintro ⟨⟩

/-- A run on a folder or a file reports what it selects. -/
theorem run_eq_reportFiles {argument : String} {node : Node} {files : List (String × Node)}
    (hhead : arguments.head? = some argument) (hnode : find? argument = some node)
    (hfiles : selected argument node = .ok files) :
    run arguments find? setting = reportFiles setting files := by
  rcases run_cases arguments find? setting with
    ⟨_, _, _, hhead', hnode', hfiles', hrun⟩ | ⟨-, hnone⟩
  · obtain rfl := Option.some.inj (hhead.symm.trans hhead')
    obtain rfl := Option.some.inj (hnode.symm.trans hnode')
    obtain rfl := Except.ok.inj (hfiles.symm.trans hfiles')
    exact hrun
  · exact absurd hfiles (hnone argument node files hhead hnode)

/-- **When a run is successful**: its argument leads to files that all hold declarations, and these
build a registry. -/
theorem exitCode_run_eq_zero_iff :
    (run arguments find? setting).exitCode = 0 ↔
      ∃ argument node files lists registry, arguments.head? = some argument ∧
        find? argument = some node ∧ Selects argument node files ∧
        List.Forall₂ (fun file list => file.2.Holds list) files lists ∧
        Registry.build lists.flatten = .ok registry := by
  constructor
  · intro hzero
    rcases run_cases arguments find? setting with
      ⟨argument, node, files, hhead, hnode, hfiles, hrun⟩ | ⟨hone, -⟩
    · rw [hrun] at hzero
      obtain ⟨lists, registry, hlists, hbuild⟩ := reportFiles_exitCode_eq_zero_iff.mp hzero
      exact ⟨argument, node, files, lists, registry, hhead, hnode, selects_of_selected hfiles,
        hlists, hbuild⟩
    · omega
  · rintro ⟨argument, node, files, lists, registry, hhead, hnode, hselects, hlists, hbuild⟩
    -- entries of one name may come in another order than in `files`
    obtain ⟨chosen, hchosen, hperm⟩ := hselects.exists_selected
    rw [run_eq_reportFiles hhead hnode hchosen]
    exact exitCode_eq_zero_of_perm hperm
      (reportFiles_exitCode_eq_zero_iff.mpr ⟨lists, registry, hlists, hbuild⟩)

/-- A run that is not successful ends with the code one. -/
theorem exitCode_run_of_ne_zero (hnonzero : (run arguments find? setting).exitCode ≠ 0) :
    (run arguments find? setting).exitCode = 1 := by
  rcases run_cases arguments find? setting with ⟨_, _, files, -, -, -, hrun⟩ | ⟨hone, -⟩
  · rw [hrun] at hnonzero ⊢
    rcases reportFiles_exitCode setting files with hone | ⟨hzero, -⟩
    · exact hone
    · exact absurd hzero hnonzero
  · exact hone

/-- **What a run ends with and what it prints.** For all arguments, whatever they lead to, under
whatever name the validator is called, and in whatever words texts are refused that are no JSON, the
code is zero exactly when there is an argument, it leads to a file or a folder, every file that it
selects is the UTF-8 text of a declaration document, and the declarations of these documents build a
registry in the order of the files; otherwise it is one. Where some of the files hold no
declarations, each of them is reported and counted, and nothing is built. Where all of them do, the
number of declarations is told for each file, and then the registry is summed up, or what was wrong
with the declarations is told. -/
theorem run_reports (arguments : List String) (find? : String → Option Node) (setting : Setting) :
    ((run arguments find? setting).exitCode = 0 ↔
      ∃ argument node files lists registry, arguments.head? = some argument ∧
        find? argument = some node ∧ Selects argument node files ∧
        List.Forall₂ (fun file list => file.2.Holds list) files lists ∧
        Registry.build lists.flatten = .ok registry) ∧
    ((run arguments find? setting).exitCode ≠ 0 → (run arguments find? setting).exitCode = 1) ∧
    ∀ argument node, arguments.head? = some argument → find? argument = some node →
      (∀ reason, node ≠ .closedFolder reason) →
      ∃ files, Selects argument node files ∧
        ((∃ file ∈ files, ∀ list, ¬ file.2.Holds list) →
          (run arguments find? setting).ListsFaults setting files) ∧
        ∀ lists, List.Forall₂ (fun file list => file.2.Holds list) files lists →
          (run arguments find? setting).SumsUp files lists := by
  refine ⟨exitCode_run_eq_zero_iff, exitCode_run_of_ne_zero, ?_⟩
  intro argument node hhead hnode hopen
  cases hfiles : selected argument node with
  | error reason => exact absurd (selected_eq_error_iff.mp hfiles) (hopen reason)
  | ok files =>
      rw [run_eq_reportFiles hhead hnode hfiles]
      refine ⟨files, selects_of_selected hfiles, ?_, fun lists => reportFiles_sumsUp setting⟩
      rintro ⟨file, hfile, hnone⟩
      refine reportFiles_listsFaults fun hfaults => ?_
      obtain ⟨list, hlist⟩ :=
        Node.fault?_eq_none_iff.mp (List.filterMap_eq_nil_iff.mp hfaults file hfile)
      exact hnone list hlist

/-- A folder with an empty list of declarations, a folder that is named like a document, a text that
is no JSON, and a file that is not looked at. -/
example :
    run ["d"] (fun _ => some (.folder [("b.json", .folder []), ("a.json", .file (.ok "[]".toUTF8)),
      ("e.json", .file (.ok "[".toUTF8)), ("c.txt", .file (.error "denied"))]))
      { refusal := fun text => "unfinished: " ++ text } =
    { lines := [.out "Validating: d/a.json", .out "  ✓ Parsed 0 declaration(s)",
        .out "Validating: d/b.json", .err "  ❌ Invalid - Is a directory (os error 21)",
        .out "Validating: d/e.json", .err "  ❌ Invalid - Invalid declaration: unfinished: [",
        .err "", .err "2 file(s) could not be decoded"]
      exitCode := 1 } := by
  decide +kernel

end Run

end Validator

end ScimDirectory
