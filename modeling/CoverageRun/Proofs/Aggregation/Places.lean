/-
Where the coverage tool is sent. The tool runs in the working directory and looks for its arguments
from there, the program looks for the same places from where it was started itself: the programs,
the sources and the raw output are the same places for both, while the directory of the profiles,
which is named as the program sees it, is the same for both only if the working directory is spelled
from the root of the tree or is where the program was started.
-/
import CoverageRun.Aggregation.Aggregate
import CoverageRun.Proofs.Path
import CoverageRun.Proofs.Profile.Collection

namespace CoverageRun

/-- The steps along which a word of a command leads, as they are seen from where the caller runs:
the command itself begins in its own directory. -/
def Command.leadsTo (c : Command) (word : String) : List Part :=
  match c.directory with
  | some dir => (dir.join word).steps
  | none => (Path.mk word).steps

namespace Aggregation

/-! ## Seen from the working directory -/

theorem resolve_eq_join (dir p : Path) : resolve dir p = dir.join p.text := by
  unfold resolve Path.join
  by_cases h : p.isAbsolute = true
  · simp [h]
  · rw [if_neg h]

theorem join_append (dir : Path) {text suffix : String}
    (h : (Path.mk (text ++ suffix)).isAbsolute = (Path.mk text).isAbsolute) :
    dir.join (text ++ suffix) = (dir.join text).withSuffix suffix := by
  unfold Path.join Path.withSuffix
  rw [h]
  split
  · rfl
  · split <;> simp [String.append_assoc]

/-- The raw output stands beside the report, seen from anywhere. -/
theorem rawPath_resolve (dir p : Path) : rawPath (resolve dir p) = dir.join (rawPath p).text := by
  have habs : (Path.mk (p.text ++ ".raw")).isAbsolute = p.isAbsolute := by
    by_cases h : p.text = ""
    · unfold Path.isAbsolute
      rw [h]
      rfl
    · exact Path.isAbsolute_append h ".raw"
  rw [resolve_eq_join]
  exact (join_append dir habs).symm

namespace Task

theorem leadsTo_command (a : Task) (root : Path) (word : String) :
    (a.command root).leadsTo word = (a.directory.join word).steps := rfl

/-- A directory of profiles is where the tool looks for it if it is spelled from the root of the tree
or the tool runs where the program does. -/
theorem leadsTo_search_iff (a : Task) (root : Path) :
    (a.command root).leadsTo root.text = root.steps ↔
      root.isAbsolute = true ∨ a.directory.steps = [] := by
  rw [leadsTo_command, Path.steps_join]
  split
  · rename_i habs
    exact ⟨fun _ => .inl habs, fun _ => rfl⟩
  · rename_i habs
    rw [List.append_left_eq_self]
    exact ⟨.inr, fun h => h.resolve_left habs⟩

/-- The programs, the sources and the raw output are at the same places for the coverage tool and
for the program that calls it. The profiles of the working directory are if and only if that is
spelled from the root of the tree or is where the program itself runs. -/
theorem command_places (a : Task) (t : Files.Tree) :
    let profiles := Profile.collect t a.directory
    let c := a.command profiles.root
    ∃ search binaries sources options output,
      c.words = [a.tool, search, "--binary-path", binaries, "-s", sources] ++ options ++
        ["-o", output] ∧
      c.leadsTo binaries = (resolve a.directory a.settings.binaryPath).steps ∧
      c.leadsTo sources = (resolve a.directory a.settings.sourceRoot).steps ∧
      c.leadsTo output = (rawPath a.reportPath).steps ∧
      (c.leadsTo search = profiles.root.steps ↔
        a.directory.isAbsolute = true ∨ a.directory.steps = []) := by
  intro profiles c
  have hroot : profiles.root = a.directory := Profile.root_collect t a.directory
  refine ⟨profiles.root.text, a.settings.binaryPath.text, a.settings.sourceRoot.text,
    ["-t", a.settings.outputFormat] ++ (if a.settings.branch then ["--branch"] else []) ++
      (if a.settings.ignoreNotExisting then ["--ignore-not-existing"] else []) ++
      a.settings.excludes.flatMap (fun pattern => ["--ignore", pattern]),
    (rawPath a.settings.reportPath).text, ?_, ?_, ?_, ?_, ?_⟩
  · simp [c, command, Command.withVariables, Command.inDirectory, Command.make]
  · rw [leadsTo_command, resolve_eq_join]
  · rw [leadsTo_command, resolve_eq_join]
  · rw [leadsTo_command, reportPath, rawPath_resolve]
  · rw [leadsTo_search_iff, hroot]

/-- In the working directory `sub`, where the program finds a profile, the tool is sent to look for it
in `sub/sub`, which is not there. -/
theorem search_leads_below :
    let t := ((Files.Tree.empty []).put ["sub"] .directory).put ["sub", "a.profraw"] (.text "p")
    let a : Task := ⟨.standard, "grcov", ⟨"sub"⟩, none, 60⟩
    let profiles := Profile.collect t a.directory
    profiles.artifacts = [⟨"sub/a.profraw"⟩] ∧ profiles.root.steps = [.name "sub"] ∧
      (a.command profiles.root).words[1]? = some "sub" ∧
      (a.command profiles.root).leadsTo "sub" = [.name "sub", .name "sub"] ∧
      t.isPresent (.ofParts [.name "sub", .name "sub"]) = false := by
  decide +kernel

end Task

end Aggregation

end CoverageRun
