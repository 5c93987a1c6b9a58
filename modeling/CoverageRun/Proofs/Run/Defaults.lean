/-
Configurations as texts. Whatever members are left out of the text of a configuration, in whatever
order the others stand and whatever else is put in, reading it gives the configuration with the
defaults of its sections in the place of what is missing. Events, origins, commands and receipts are
read back as they were written.
-/
import CoverageRun.Origin
import CoverageRun.Command
import CoverageRun.Proofs.Json.RoundTrip
import CoverageRun.Run.Config

namespace CoverageRun

open Json

/-! ## Sections -/

/-- The rules with those fields that are kept, and the default of the others. -/
def StartRules.keeping (r : StartRules) (kept : String → Bool) : StartRules where
  pushBranches := if kept "push_branches" then r.pushBranches else standard.pushBranches
  pullRequestRefs := if kept "pull_request_refs" then r.pullRequestRefs else standard.pullRequestRefs

theorem StartRules.read_varied {kept : List String → Bool} (r : StartRules) {d : Datum}
    (h : Varied kept r.toJson d) : ofJson d.node = .ok (r.keeping fun n => kept [n]) := by
  refine h.readRecord r.keeping ?_ (.cons ?_ (.cons ?_ .nil)) (by simp) (by simp [fields, Field.of])
  · intro filled hfilled
    simp [keeping, hfilled]
  · exact Field.restores_texts fun filled => by simp [keeping]
  · exact Field.restores_texts fun filled => by simp [keeping]

/-- What is needed with those fields that are kept, and the default of the others. -/
def Toolchain.Needs.keeping (s : Needs) (kept : String → Bool) : Needs where
  channel := if kept "channel" then s.channel else standard.channel
  components := if kept "components" then s.components else standard.components
  tool := if kept "instrumentation_tool" then s.tool else standard.tool

theorem Toolchain.Needs.nameSet_keys (names : Store.OrderedMap String Unit) :
    nameSet names.keys = names := by
  have hentries : names.keys.map (·, ()) = names.entries := by
    rw [Store.OrderedMap.keys, List.map_map]
    exact List.map_id _
  rw [nameSet, hentries, names.ofList_entries]

theorem Toolchain.Needs.read_varied {kept : List String → Bool} (s : Needs) {d : Datum}
    (h : Varied kept s.toJson d) : ofJson d.node = .ok (s.keeping fun n => kept [n]) := by
  refine h.readRecord s.keeping ?_ (.cons ?_ (.cons ?_ (.cons ?_ .nil))) (by simp)
    (by simp [fields, Field.of])
  · intro filled hfilled
    simp [keeping, hfilled]
  · exact Field.restores_text fun filled => by simp [keeping]
  · exact Field.restores_texts fun filled => by simp [keeping, nameSet_keys]
  · exact Field.restores_text fun filled => by simp [keeping]

/-- The settings with those fields that are kept, and the default of the others. -/
def Instrumentation.Settings.keeping (s : Settings) (kept : String → Bool) : Settings where
  compilerFlags := if kept "rustflags" then s.compilerFlags else standard.compilerFlags
  profilePattern := if kept "profile_file_pattern" then s.profilePattern else standard.profilePattern
  buildArgs := if kept "build_args" then s.buildArgs else standard.buildArgs
  testArgs := if kept "test_args" then s.testArgs else standard.testArgs

theorem Instrumentation.Settings.read_varied {kept : List String → Bool} (s : Settings) {d : Datum}
    (h : Varied kept s.toJson d) : ofJson d.node = .ok (s.keeping fun n => kept [n]) := by
  refine h.readRecord s.keeping ?_ (.cons ?_ (.cons ?_ (.cons ?_ (.cons ?_ .nil)))) (by simp)
    (by simp [fields, Field.of])
  · intro filled hfilled
    simp [keeping, hfilled]
  · exact Field.restores_text fun filled => by simp [keeping]
  · exact Field.restores_text fun filled => by simp [keeping]
  · exact Field.restores_texts fun filled => by simp [keeping]
  · exact Field.restores_texts fun filled => by simp [keeping]

/-- The settings with those fields that are kept, and the default of the others. -/
def Aggregation.Settings.keeping (s : Settings) (kept : String → Bool) : Settings where
  binaryPath := if kept "binary_path" then s.binaryPath else standard.binaryPath
  sourceRoot := if kept "source_root" then s.sourceRoot else standard.sourceRoot
  outputFormat := if kept "output_format" then s.outputFormat else standard.outputFormat
  branch := if kept "branch" then s.branch else standard.branch
  ignoreNotExisting :=
    if kept "ignore_not_existing" then s.ignoreNotExisting else standard.ignoreNotExisting
  excludes := if kept "excludes" then s.excludes else standard.excludes
  reportPath := if kept "report_path" then s.reportPath else standard.reportPath

theorem Aggregation.Settings.read_varied {kept : List String → Bool} (s : Settings) {d : Datum}
    (h : Varied kept s.toJson d) : ofJson d.node = .ok (s.keeping fun n => kept [n]) := by
  refine h.readRecord s.keeping ?_
    (.cons ?_ (.cons ?_ (.cons ?_ (.cons ?_ (.cons ?_ (.cons ?_ (.cons ?_ .nil))))))) (by simp)
    (by simp [fields, Field.of])
  · intro filled hfilled
    simp [keeping, hfilled]
  · exact Field.restores_text fun filled => by simp [keeping]
  · exact Field.restores_text fun filled => by simp [keeping]
  · exact Field.restores_text fun filled => by simp [keeping]
  · exact Field.restores_bool fun filled => by simp [keeping]
  · exact Field.restores_bool fun filled => by simp [keeping]
  · exact Field.restores_texts fun filled => by simp [keeping]
  · exact Field.restores_text fun filled => by simp [keeping]

/-- The settings with those fields that are kept, and the default of the others. -/
def Upload.Settings.keeping (s : Settings) (kept : String → Bool) : Settings where
  baseUrl := if kept "base_url" then s.baseUrl else standard.baseUrl
  tokenVariable := if kept "token_env" then s.tokenVariable else standard.tokenVariable
  flags := if kept "flags" then s.flags else standard.flags
  name := if kept "name" then s.name else standard.name
  timeout := if kept "timeout_secs" then s.timeout else standard.timeout

theorem Upload.Settings.read_varied {kept : List String → Bool} (s : Settings) {d : Datum}
    (h : Varied kept s.toJson d) : ofJson d.node = .ok (s.keeping fun n => kept [n]) := by
  refine h.readRecord s.keeping ?_ (.cons ?_ (.cons ?_ (.cons ?_ (.cons ?_ (.cons ?_ .nil)))))
    (by simp) (by simp [fields, Field.of])
  · intro filled hfilled
    simp [keeping, hfilled]
  · exact Field.restores_text fun filled => by simp [keeping]
  · exact Field.restores_text fun filled => by simp [keeping]
  · exact Field.restores_texts fun filled => by simp [keeping]
  · exact Field.restores_optional nofun (readOptional_text _) fun filled => by simp [keeping]
  · exact Field.restores_word fun filled => by simp [keeping]

/-! ## Configurations -/

/-- The configuration with those sections and fields of sections that are kept, and the default of
the others. -/
def Config.keeping (c : Config) (top : String → Bool) (inner : String → String → Bool) : Config where
  trigger := if top "trigger" then c.trigger.keeping (inner "trigger") else standard.trigger
  toolchain := if top "toolchain" then c.toolchain.keeping (inner "toolchain") else standard.toolchain
  instrumentation :=
    if top "instrumentation" then c.instrumentation.keeping (inner "instrumentation")
    else standard.instrumentation
  aggregation :=
    if top "aggregation" then c.aggregation.keeping (inner "aggregation") else standard.aggregation
  publish := if top "publish" then c.publish.keeping (inner "publish") else standard.publish
  stageTimeout := if top "stage_timeout_secs" then c.stageTimeout else standard.stageTimeout
  runTimeout := if top "run_timeout_secs" then c.runTimeout else standard.runTimeout

theorem Config.read_varied {kept : List String → Bool} (c : Config) {d : Datum}
    (h : Varied kept c.toJson d) :
    ofJson d.node = .ok (c.keeping (fun n => kept [n]) fun s n => kept [s, n]) := by
  refine h.readRecord (fun filled => c.keeping filled fun s n => kept [s, n]) ?_
    (.cons ?_ (.cons ?_ (.cons ?_ (.cons ?_ (.cons ?_ (.cons ?_ (.cons ?_ .nil))))))) (by simp)
    (by simp [fields, Field.of])
  · intro filled hfilled
    simp [keeping, hfilled, standard]
  · exact Field.restores_of_varied (fun _ => c.trigger.read_varied) fun filled => by simp [keeping]
  · exact Field.restores_of_varied (fun _ => c.toolchain.read_varied) fun filled => by simp [keeping]
  · exact Field.restores_of_varied (fun _ => c.instrumentation.read_varied) fun filled => by
      simp [keeping]
  · exact Field.restores_of_varied (fun _ => c.aggregation.read_varied) fun filled => by
      simp [keeping]
  · exact Field.restores_of_varied (fun _ => c.publish.read_varied) fun filled => by simp [keeping]
  · exact Field.restores_word fun filled => by simp [keeping]
  · exact Field.restores_optional (fun _ => nofun) (readOptional_word _) fun filled => by
      simp [keeping]

/-- A configuration is kept as it is where nothing is left out. -/
theorem Config.keeping_all (c : Config) : c.keeping (fun _ => true) (fun _ _ => true) = c := rfl

theorem Config.readsBack : ReadsBack toJson ofJson := .of_node fun c =>
  (c.read_varied (.refl c.toJson)).trans (congrArg Except.ok c.keeping_all)

/-! ## Records without defaults -/

theorem Event.readsBack : ReadsBack Event.toJson Event.ofJson := .of_node fun e => by
  obtain ⟨kind, ref⟩ := e
  cases kind <;> rfl

theorem Origin.readsBack : ReadsBack Origin.toJson Origin.ofJson := .of_node fun c => by
  simp [toJson, ofJson, fields, Field.of, Value.datum, Value.memberData, Datum.node,
    Datum.memberNodes, Node.readRecord, Members.readRecord, Except.map, bind, Except.bind]

theorem Command.readsBack : ReadsBack Command.toJson Command.ofJson := .of_node fun c => by
  have hdirectory : Value.optional (fun p : Path => .text p.text) c.directory =
      .optional .text (c.directory.map Path.text) := by
    cases c.directory <;> rfl
  have hpath : Path.mk ∘ Path.text = id := rfl
  simp [toJson, hdirectory, hpath, ofJson, fields, Field.of, Value.datum, Value.memberData,
    Datum.node, Datum.memberNodes, Node.readRecord, Members.readRecord, Except.map, bind, Except.bind]

theorem Upload.Receipt.readsBack : ReadsBack Receipt.toJson Receipt.ofJson := .of_node fun r => by
  simp [toJson, ofJson, fields, Field.of, Value.datum, Value.memberData, Datum.node,
    Datum.memberNodes, Node.readRecord, Members.readRecord, Except.map, bind, Except.bind]

/-! ## Reading back -/

/-- A configuration is read from every text of every variation of it: what is missing there is as by
default, and everything else is as it was written, so it comes back whole where nothing is missing.
Configurations, events, origins, commands and receipts are read back from their own texts. -/
theorem configuration_roundTrip :
    (∀ (c : Config) (kept : List String → Bool) (d : Datum) (text : String),
      Varied kept c.toJson d → d.SpelledBy text →
        readDocument Config.ofJson text =
          .ok (c.keeping (fun n => kept [n]) fun s n => kept [s, n])) ∧
      (∀ (c : Config) (d : Datum) (text : String), Varied (fun _ => true) c.toJson d →
        d.SpelledBy text → readDocument Config.ofJson text = .ok c) ∧
      ReadsBack Config.toJson Config.ofJson ∧ ReadsBack Event.toJson Event.ofJson ∧
        ReadsBack Origin.toJson Origin.ofJson ∧ ReadsBack Command.toJson Command.ofJson ∧
          ReadsBack Upload.Receipt.toJson Upload.Receipt.ofJson := by
  have hread : ∀ (c : Config) (kept : List String → Bool) (d : Datum) (text : String),
      Varied kept c.toJson d → d.SpelledBy text →
        readDocument Config.ofJson text =
          .ok (c.keeping (fun n => kept [n]) fun s n => kept [s, n]) := by
    intro c kept d text hvaried htext
    rw [readDocument_of_spelledBy htext]
    exact c.read_varied hvaried
  refine ⟨hread, fun c d text hvaried htext => ?_, Config.readsBack, Event.readsBack,
    Origin.readsBack, Command.readsBack, Upload.Receipt.readsBack⟩
  exact (hread c _ d text hvaried htext).trans (congrArg Except.ok c.keeping_all)

/-- A text with one member of a section and a limit: the other settings are as by default, and what
the configuration does not know is passed over. -/
theorem configuration_roundTrip_partly :
    ∃ (c : Config) (kept : List String → Bool) (d : Datum) (text : String),
      Varied kept c.toJson d ∧ d.SpelledBy text ∧ c.stageTimeout = 5 ∧ c.toolchain.tool = "kcov" ∧
        readDocument Config.ofJson text = .ok { Config.standard with
          toolchain := { Toolchain.Needs.standard with channel := "beta" }
          runTimeout := some 60 } := by
  let c : Config := { Config.standard with
    toolchain := ⟨"beta", .empty, "kcov"⟩
    stageTimeout := 5
    runTimeout := some 60 }
  let kept : List String → Bool := fun path =>
    path ∈ [["toolchain"], ["toolchain", "channel"], ["run_timeout_secs"]]
  let v : Value := .object [
    ("run_timeout_secs", .integer 60),
    ("extra", .array [.null]),
    ("toolchain", .object [("extra", .bool true), ("channel", .text "beta")])]
  have htoolchain : Varied (fun path => kept ("toolchain" :: path)) c.toolchain.toJson
      (.object [("extra", .bool true), ("channel", .text "beta")]) :=
    .object (.keep rfl (.leaf nofun) (.drop rfl (.drop rfl .nil)))
      (by simp : ∀ m ∈ [("extra", Datum.bool true)], _) (List.Perm.swap _ _ _)
  have hvaried : Varied kept c.toJson v.datum := by
    refine .object (.drop rfl (.keep rfl htoolchain (.drop rfl (.drop rfl (.drop rfl (.drop rfl
      (.keep rfl (.leaf nofun) .nil)))))))
      (by simp : ∀ m ∈ [("extra", Datum.array [.null])], _) ?_
    exact List.perm_append_singleton _ [_, _]
  exact ⟨c, kept, v.datum, v.pretty, hvaried, v.spelledBy_pretty, rfl, rfl,
    configuration_roundTrip.1 c kept v.datum v.pretty hvaried v.spelledBy_pretty⟩

end CoverageRun
