/-
What is left of a report when a file operation on it is overtaken: its outputs are removed while the
operation is still under way. It matters only for what had been removed when it lands. Reading brings
nothing back; staging that lands behind all removals leaves the staged report.
-/
import CoverageRun.Proofs.Aggregation.Failure
import CoverageRun.Proofs.Files.Following
import CoverageRun.Proofs.Run.Work

namespace CoverageRun

open Files

namespace Files.Tree

/-- A path names what is written to it. -/
theorem namesFile_of_write {t t' : Tree} {p : Path} {bytes : List UInt8} (hp : p.text ≠ "")
    (hw : t.write p bytes = .ok t') : t'.namesFile p = true := by
  have hname := endsInName_of_write hp hw
  obtain ⟨route, name, hends, -⟩ := endsIn_of_endsInName hname
  obtain ⟨place, loc, executable, hplace, hloc, rfl⟩ := fileAt?_of_write hname hw
  obtain ⟨d, hreach⟩ := reaches_of_place hends hplace
  obtain ⟨locs, -, hfollowed⟩ := hreach.followed hplace
  obtain ⟨hne, hfree⟩ := hfollowed.entry?_of_fileAt? hloc
  obtain ⟨route', -, hway⟩ := hreach.way
  -- nothing on the way to the name has changed
  have hreach' : Reaches (t.put loc (.file bytes executable)) p d name :=
    hreach.congr (home_put t _ _) fun l hl => by
      rw [entry?_put t hne, if_neg (ne_of_mem_of_not_mem hl (hway.not_mem_trail hfree))]
  rw [namesFile_eq_true]
  by_cases hown : d.dir ++ [name] = loc
  · refine ⟨d.dir ++ [name], .file bytes executable, ?_, by simp⟩
    rw [hreach'.find (.inl rfl), entry?_put t hne, if_pos hown]
  -- else the name is a link, which the file was written behind
  obtain ⟨target, hlink⟩ : ∃ target, t.entry? (d.dir ++ [name]) = some (.link target) := by
    by_contra hnone
    rw [hreach.place (.inr fun target he => hnone ⟨target, he⟩)] at hplace
    rcases he : t.entry? (d.dir ++ [name]) with _ | _ | ⟨b, x⟩ | target <;> rw [he] at hplace <;>
      cases hplace <;> cases hloc
    · exact hown rfl
    · exact hown rfl
  refine ⟨d.dir ++ [name], .link target, ?_, by simp⟩
  rw [hreach'.find (.inl rfl), entry?_put t hne, if_neg hown, hlink]

end Files.Tree

namespace Aggregation

/-- A file operation lands amid the removals and brings back an output that had been removed. -/
def BringsBack (t : Tree) (report : Path) : Option Late → Prop
  | some ⟨op, .after n⟩ => ∃ q ∈ (outputs report).take n,
      (op.land (((outputs report).take n).foldl Tree.discard t)).namesFile q = true
  | _ => False

variable {t : Tree} {report : Path}

/-- Where no output is brought back none is left. -/
theorem noOutputs_discardAmid {late : Option Late} (h : ¬ BringsBack t report late) :
    NoOutputs (discardAmid t report late) report := by
  rcases late with _ | ⟨op, n | _⟩
  · exact noOutputs_discardOutputs t report
  · refine noOutputs_discardAround fun q hq => Bool.eq_false_iff.2 fun hnames => ?_
    exact h ⟨q, hq, hnames⟩
  · exact noOutputs_discardOutputs t report

/-- Reading brings nothing back. -/
theorem not_bringsBack_read (t : Tree) (report p : Path) (landing : Landing) :
    ¬ BringsBack t report (some ⟨.read p, landing⟩) := by
  cases landing with
  | never => exact id
  | after n =>
    rintro ⟨q, hq, hnames⟩
    have hgone := namesFile_foldl_discard ((outputs report).take n) t (.inl hq)
    rw [show Operation.land (.read p) (((outputs report).take n).foldl Tree.discard t) =
      ((outputs report).take n).foldl Tree.discard t from rfl, hgone] at hnames
    cases hnames

/-- An operation that lands behind all removals finds the tree without the outputs. -/
theorem discardAmid_of_le {n : Nat} (hn : 3 ≤ n) (t : Tree) (report : Path) (op : Operation) :
    discardAmid t report (some ⟨op, .after n⟩) = op.land (discardOutputs t report) := by
  have hall : (outputs report).length ≤ n := hn
  simp only [discardAmid, discardAround, List.take_of_length_le hall, List.drop_of_length_le hall]
  rfl

/-- Staging that lands behind all removals leaves the staged report, unless it fails. -/
theorem noOutputs_staged_iff {n : Nat} (hn : 3 ≤ n) (t : Tree) (report : Path) (bytes : List UInt8) :
    NoOutputs (discardAmid t report (some ⟨.write (stagedPath report) bytes, .after n⟩)) report ↔
      ∀ t', (discardOutputs t report).write (stagedPath report) bytes ≠ .ok t' := by
  rw [discardAmid_of_le hn]
  cases hw : (discardOutputs t report).write (stagedPath report) bytes with
  | error fault => simp [Operation.land, Operation.apply, hw, noOutputs_discardOutputs]
  | ok t' =>
    have hnames := Tree.namesFile_of_write (by simp [stagedPath, Path.withSuffix]) hw
    simp only [Operation.land, Operation.apply, hw, ne_eq, Except.ok.injEq, forall_eq', iff_false]
    intro hnone
    rw [hnone (stagedPath report) (by simp [outputs])] at hnames
    cases hnames

namespace Task

variable {σ : Type}

/-- An aggregation that time runs out for while it waits for a file operation waits for one of three,
and the host has let it be overtaken. -/
theorem waits_of_aggregate {h : Host σ} {a : Task} {profiles : Profile.Collection} {w w' : World σ}
    {late : Late} (ho : outcome (a.aggregate h profiles) w = (.error (.unending (some late)), w')) :
    a.Waits late.operation ∧ ∃ t s, h.overtakes late.operation t s = some late.landing := by
  let allowed : Halt → Prop := fun halt => ∀ late, halt = .unending (some late) →
    a.Waits late.operation ∧ ∃ t s, h.overtakes late.operation t s = some late.landing
  have hspoils : Spoils h a allowed := by
    refine ⟨by simp [allowed], by simp [allowed], by simp [allowed], by simp [allowed], ?_⟩
    rintro op hop t s landing hlate _ ⟨⟩
    exact ⟨hop, t, s, hlate⟩
  have hissue : Stops allowed (Action.issue h (a.command profiles.root)) :=
    .issue_of_answers (by simp [allowed]) (.inr (by simp [allowed]))
  rw [outcome_aggregate] at ho
  split at ho
  · exact stops_collectOrDiscard hspoils profiles _ hissue _ _ _ ho late rfl
  · cases ho

end Task

end Aggregation

end CoverageRun
