/-
The branch of an origin against what its ref points at. A head that is named goes before everything
else; without one the two agree on branches and on pull requests with a number, and only there: of
a tag, and of a pull request without a number, the origin takes the short name for a branch.
-/
import CoverageRun.Origin
import CoverageRun.Proofs.Event.Rules

namespace CoverageRun

open Text Numeral

/-! ## Numbers of pull requests -/

theorem pullRequestNumber?_append (rest : String) : pullRequestNumber? ("refs/pull/" ++ rest) =
    ((split '/' rest.toList).head?.bind read64) := by
  rw [pullRequestNumber?, String.toList_append, after?_append]
  rfl

theorem pullRequestNumber?_of_not_pull {ref : String}
    (h : ¬ "refs/pull/".toList <+: ref.toList) : pullRequestNumber? ref = none := by
  have hafter : after? "refs/pull/".toList ref.toList = none := by
    simpa [afterText?] using afterText?_eq_none.2 h
  rw [pullRequestNumber?, hafter]
  rfl

/-- The digits before the first slash are the number. -/
theorem pullRequestNumber?_digits {digits rest : List Char} (hne : digits ≠ [])
    (hdigits : ∀ c ∈ digits, isDigit c = true) (hlt : value digits < UInt64.size)
    (hrest : rest = [] ∨ rest.head? = some '/') :
    pullRequestNumber? ("refs/pull/" ++ String.ofList (digits ++ rest)) =
      some (UInt64.ofNat (value digits)) := by
  have hslash : '/' ∉ digits := fun h => absurd (hdigits _ h) (by decide)
  have hfirst : (split '/' (digits ++ rest)).head? = some digits := by
    rcases hrest with rfl | hrest
    · rw [List.append_nil, split_of_not_mem hslash]
      rfl
    · obtain ⟨r, rfl⟩ := List.head?_eq_some_iff.1 hrest
      rw [split_append r hslash]
      rfl
  have hplus : dropPlus digits = digits := by
    unfold dropPlus
    split
    · exact absurd (hdigits '+' List.mem_cons_self) (by decide)
    · rfl
  rw [pullRequestNumber?_append, String.toList_ofList, hfirst, Option.bind_some, read64, readBelow,
    hplus, if_pos ⟨hne, List.all_eq_true.2 hdigits, hlt⟩]
  rfl

namespace Origin

/-! ## Branches -/

/-- Variables of a run that a ref was pushed for: the commit, the ref, and its short name, which is
the ref without what it begins with. -/
structure RunsOn (var : String → Option String) (ref : String) : Prop where
  commit : (var "GITHUB_SHA").isSome
  fullName : var "GITHUB_REF" = some ref
  shortName : var "GITHUB_REF_NAME" =
    some (withoutLead ["refs/heads/", "refs/tags/", "refs/pull/"] ref)

variable {var : String → Option String} {ref : String}

theorem branchOf_of_head {head : String} (hhead : var "GITHUB_HEAD_REF" = some head)
    (hne : head ≠ "") : branchOf var ref = some head := by
  rw [branchOf, hhead, Option.filter_some, if_pos (decide_eq_true hne)]

/-- Without a head the short name is the branch, but for a pull request with a number. -/
theorem branchOf_of_no_head (h : RunsOn var ref) (hhead : (var "GITHUB_HEAD_REF").getD "" = "") :
    branchOf var ref =
      if (pullRequestNumber? ref).isNone then
        some (withoutLead ["refs/heads/", "refs/tags/", "refs/pull/"] ref)
      else afterText? "refs/heads/" ref := by
  have hfilter : (var "GITHUB_HEAD_REF").filter (· ≠ "") = none := by
    cases hvar : var "GITHUB_HEAD_REF" with
    | none => rfl
    | some head =>
      rw [hvar] at hhead
      simpa using hhead
  rw [branchOf, hfilter, h.shortName, Option.filter_some]
  cases (pullRequestNumber? ref).isNone <;> rfl

/-- What the branch is taken from if no head is named. -/
theorem branchOf_cases (h : RunsOn var ref) (hhead : (var "GITHUB_HEAD_REF").getD "" = "") :
    branchOf var ref =
      match GitRef.ofText ref with
      | .branch name | .tag name => some name
      | .pullRequest rest => if (pullRequestNumber? ref).isNone then some rest else none := by
  rw [branchOf_of_no_head h hhead]
  rcases GitRef.ref_cases ref with ⟨name, rfl⟩ | ⟨name, rfl⟩ | ⟨rest, rfl⟩ | hname
  · have hpull : ¬ "refs/pull/".toList <+: ("refs/heads/" ++ name).toList :=
      not_prefix_append (by decide) (by decide) name
    rw [GitRef.ofText_heads, pullRequestNumber?_of_not_pull hpull, withoutLead_append]
    rfl
  · have hheads : ¬ "refs/heads/".toList <+: ("refs/tags/" ++ name).toList :=
      not_prefix_append (by decide) (by decide) name
    have hpull : ¬ "refs/pull/".toList <+: ("refs/tags/" ++ name).toList :=
      not_prefix_append (by decide) (by decide) name
    rw [GitRef.ofText_tags, pullRequestNumber?_of_not_pull hpull, withoutLead_of_not_prefix hheads,
      withoutLead_append]
    rfl
  · have hheads : ¬ "refs/heads/".toList <+: ("refs/pull/" ++ rest).toList :=
      not_prefix_append (by decide) (by decide) rest
    have htags : ¬ "refs/tags/".toList <+: ("refs/pull/" ++ rest).toList :=
      not_prefix_append (by decide) (by decide) rest
    rw [GitRef.ofText_pull, withoutLead_of_not_prefix hheads, withoutLead_of_not_prefix htags,
      withoutLead_append, afterText?_eq_none.2 hheads]
  · rw [GitRef.ofText_name hname, pullRequestNumber?_of_not_pull (hname _ (by simp)),
      withoutLead_of_not_prefix (hname _ (by simp)), withoutLead_of_not_prefix (hname _ (by simp)),
      withoutLead_of_not_prefix (hname _ (by simp)), withoutLead_nil]
    rfl

/-- A ref that is no branch and yet not told from one: a tag, or a pull request without a number. -/
def Mistaken (ref name : String) : Prop :=
  GitRef.ofText ref = .tag name ∨
    GitRef.ofText ref = .pullRequest name ∧ pullRequestNumber? ref = none

theorem branchOf_of_mistaken (h : RunsOn var ref) (hhead : (var "GITHUB_HEAD_REF").getD "" = "")
    {name : String} (hname : Mistaken ref name) : branchOf var ref = some name := by
  rw [branchOf_cases h hhead]
  rcases hname with htag | ⟨hpull, hnumber⟩
  · rw [htag]
  · rw [hpull, hnumber]
    rfl

theorem branchOf_agrees_iff (h : RunsOn var ref) (hhead : (var "GITHUB_HEAD_REF").getD "" = "") :
    (∀ b, branchOf var ref = some b ↔ GitRef.ofText ref = .branch b) ↔
      ¬ ∃ name, Mistaken ref name := by
  constructor
  · rintro hagree ⟨name, hname⟩
    have hbranch := (hagree name).1 (branchOf_of_mistaken h hhead hname)
    rcases hname with htag | ⟨hpull, -⟩
    · rw [htag] at hbranch; cases hbranch
    · rw [hpull] at hbranch; cases hbranch
  · intro hnone b
    rw [branchOf_cases h hhead]
    cases href : GitRef.ofText ref with
    | branch name => simp
    | tag name => exact absurd ⟨name, .inl href⟩ hnone
    | pullRequest rest =>
      cases hnumber : pullRequestNumber? ref with
      | none => exact absurd ⟨rest, .inr ⟨href, hnumber⟩⟩ hnone
      | some n => simp

/-- A run with a commit and a ref has an origin. A head that is named is its branch. Without one its
branch is that of the ref, if the ref points at one, and none otherwise, exactly if the ref is
neither a tag nor a pull request without a number; the name of such a ref is taken for a branch. A
number directly behind the beginning of a pull request's ref is the number of the pull request, and
other refs have none. -/
theorem ofVariables_branch (h : RunsOn var ref) (fresh : String) :
    ∃ origin, ofVariables? var fresh = some origin ∧
      (∀ head, var "GITHUB_HEAD_REF" = some head → head ≠ "" → origin.branch = some head) ∧
      ((var "GITHUB_HEAD_REF").getD "" = "" →
        ((∀ b, origin.branch = some b ↔ GitRef.ofText ref = .branch b) ↔
          ¬ ∃ name, Mistaken ref name) ∧
        ∀ name, Mistaken ref name → origin.branch = some name) ∧
      (∀ digits rest, digits ≠ [] → (∀ c ∈ digits, isDigit c = true) →
        value digits < UInt64.size → rest = [] ∨ rest.head? = some '/' →
        ref = "refs/pull/" ++ String.ofList (digits ++ rest) →
        origin.pullRequest = some (UInt64.ofNat (value digits))) ∧
      (¬ "refs/pull/".toList <+: ref.toList → origin.pullRequest = none) := by
  obtain ⟨commit, hcommit⟩ := Option.isSome_iff_exists.1 h.commit
  refine ⟨_, by rw [ofVariables?, hcommit, h.fullName]; rfl, ?_, ?_, ?_, ?_⟩
  · exact fun head hhead hne => branchOf_of_head hhead hne
  · exact fun hhead => ⟨branchOf_agrees_iff h hhead, fun name => branchOf_of_mistaken h hhead⟩
  · rintro digits rest hne hdigits hlt hrest rfl
    exact pullRequestNumber?_digits hne hdigits hlt hrest
  · exact pullRequestNumber?_of_not_pull

/-- The variables of a run on the merge of a pull request. -/
def mergeVariables (name : String) : Option String :=
  [("GITHUB_SHA", "def456"), ("GITHUB_REF", "refs/pull/17/merge"),
    ("GITHUB_REF_NAME", "17/merge"), ("GITHUB_HEAD_REF", "")].lookup name

theorem ofVariables_branch_merge : RunsOn mergeVariables "refs/pull/17/merge" ∧
    ∃ origin, ofVariables? mergeVariables "" = some origin ∧ origin.branch = none ∧
      origin.pullRequest = some 17 := by
  have hruns : RunsOn mergeVariables "refs/pull/17/merge" := ⟨by decide, by decide, by decide⟩
  obtain ⟨origin, horigin, -, hbranch, hnumber, -⟩ := ofVariables_branch hruns ""
  have hpull : origin.pullRequest = some 17 := hnumber ['1', '7'] "/merge".toList (by decide)
    (List.all_eq_true.1 (by decide)) (by decide) (.inr (by decide)) (by decide)
  refine ⟨hruns, origin, horigin, ?_, hpull⟩
  have href : GitRef.ofText "refs/pull/17/merge" = .pullRequest "17/merge" :=
    GitRef.ofText_pull "17/merge"
  have hnone : ¬ ∃ name, Mistaken "refs/pull/17/merge" name := by
    rintro ⟨name, htag | ⟨-, hnumber⟩⟩
    · rw [href] at htag; cases htag
    · exact absurd hnumber (by decide)
  have hagree := (hbranch (by decide)).1.2 hnone
  refine Option.eq_none_iff_forall_ne_some.2 fun b hb => ?_
  have hb := (hagree b).1 hb
  rw [href] at hb
  cases hb

/-- The variables of a run that a tag was pushed for. -/
def tagVariables (name : String) : Option String :=
  [("GITHUB_SHA", "abc123"), ("GITHUB_REF", "refs/tags/v1.0.0"), ("GITHUB_REF_NAME", "v1.0.0"),
    ("GITHUB_REPOSITORY", "octo/chain"), ("GITHUB_RUN_ID", "9001")].lookup name

/-- A tag is taken for a branch of its name. -/
theorem branch_of_tag : RunsOn tagVariables "refs/tags/v1.0.0" ∧
    tagVariables "GITHUB_HEAD_REF" = none ∧
    GitRef.ofText "refs/tags/v1.0.0" = .tag "v1.0.0" ∧
    (ofVariables? tagVariables "").bind Origin.branch = some "v1.0.0" :=
  ⟨⟨by decide, by decide, by decide⟩, by decide, GitRef.ofText_tags "v1.0.0", by decide⟩

end Origin

end CoverageRun
