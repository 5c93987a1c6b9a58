/-
Which events start a run. A push goes by the name of the branch and never by that of a tag or by a
pull request, a pull request by the name of its branch or tag or by its whole ref; with rules of
simple patterns the name is one of the texts or begins with what stands before a star. A branch may
be given by its name or by its ref, and the standard rules take every branch.
-/
import CoverageRun.Event.Rules
import CoverageRun.Proofs.Glob.Simple
import CoverageRun.Proofs.Text.Lines

namespace CoverageRun

open Glob

/-! ## Beginnings -/

namespace Text

theorem afterText?_eq_some {lead s name : String} :
    afterText? lead s = some name ↔ s = lead ++ name := by
  unfold afterText?
  rw [Option.map_eq_some_iff]
  constructor
  · rintro ⟨rest, hrest, rfl⟩
    exact String.toList_inj.1 (by rw [eq_of_after? hrest]; simp)
  · rintro rfl
    exact ⟨name.toList, by rw [String.toList_append, after?_append], String.ofList_toList⟩

theorem afterText?_eq_none {lead s : String} :
    afterText? lead s = none ↔ ¬ lead.toList <+: s.toList := by
  rw [← not_iff_not, not_not, ← ne_eq, Option.ne_none_iff_exists']
  constructor
  · rintro ⟨name, hname⟩
    rw [afterText?_eq_some.1 hname, String.toList_append]
    exact List.prefix_append _ _
  · rintro ⟨rest, hrest⟩
    exact ⟨String.ofList rest, afterText?_eq_some.2 (String.toList_inj.1 (by simp [hrest]))⟩

/-- The text behind the first of several beginnings that it has; all of it if it has none. -/
def withoutLead (leads : List String) (s : String) : String :=
  match leads.find? fun lead => lead.toList.isPrefixOf s.toList with
  | some lead => String.ofList (s.toList.drop lead.toList.length)
  | none => s

theorem withoutLead_nil (s : String) : withoutLead [] s = s := rfl

theorem withoutLead_append (lead : String) (leads : List String) (s : String) :
    withoutLead (lead :: leads) (lead ++ s) = s := by
  simp [withoutLead]

theorem withoutLead_of_not_prefix {lead s : String} (h : ¬ lead.toList <+: s.toList)
    (leads : List String) : withoutLead (lead :: leads) s = withoutLead leads s := by
  unfold withoutLead
  rw [List.find?_cons_of_neg]
  simpa using h

/-- Of beginnings neither of which begins the other a text has one at most. -/
theorem not_prefix_append {a b : String} (hab : ¬ a.toList <+: b.toList)
    (hba : ¬ b.toList <+: a.toList) (s : String) : ¬ a.toList <+: (b ++ s).toList := by
  intro ha
  rw [String.toList_append] at ha
  rcases List.prefix_or_prefix_of_prefix ha (List.prefix_append b.toList s.toList) with h | h
  · exact hab h
  · exact hba h

end Text

open Text

/-! ## Refs -/

namespace GitRef

theorem ofText_heads (name : String) : ofText ("refs/heads/" ++ name) = .branch name := by
  rw [ofText, afterText?_eq_some.2 rfl]

theorem ofText_tags (name : String) : ofText ("refs/tags/" ++ name) = .tag name := by
  have hheads : ¬ "refs/heads/".toList <+: ("refs/tags/" ++ name).toList :=
    not_prefix_append (by decide) (by decide) name
  rw [ofText, afterText?_eq_none.2 hheads, afterText?_eq_some.2 rfl]

theorem ofText_pull (rest : String) : ofText ("refs/pull/" ++ rest) = .pullRequest rest := by
  have hheads : ¬ "refs/heads/".toList <+: ("refs/pull/" ++ rest).toList :=
    not_prefix_append (by decide) (by decide) rest
  have htags : ¬ "refs/tags/".toList <+: ("refs/pull/" ++ rest).toList :=
    not_prefix_append (by decide) (by decide) rest
  rw [ofText, afterText?_eq_none.2 hheads, afterText?_eq_none.2 htags, afterText?_eq_some.2 rfl]

/-- A text that is no ref: the name of a branch. -/
def IsName (s : String) : Prop :=
  ∀ lead ∈ ["refs/heads/", "refs/tags/", "refs/pull/"], ¬ lead.toList <+: s.toList

theorem ofText_name {s : String} (h : IsName s) : ofText s = .branch s := by
  rw [ofText, afterText?_eq_none.2 (h _ (by simp)), afterText?_eq_none.2 (h _ (by simp)),
    afterText?_eq_none.2 (h _ (by simp))]

/-- A text is a ref of one of three kinds or a name. -/
theorem ref_cases (ref : String) : (∃ name, ref = "refs/heads/" ++ name) ∨
    (∃ name, ref = "refs/tags/" ++ name) ∨ (∃ rest, ref = "refs/pull/" ++ rest) ∨ IsName ref := by
  by_cases hname : IsName ref
  · exact .inr (.inr (.inr hname))
  unfold IsName at hname
  push Not at hname
  obtain ⟨lead, hlead, rest, hrest⟩ := hname
  have href : ref = lead ++ String.ofList rest := String.toList_inj.1 (by simp [hrest])
  simp only [List.mem_cons, List.not_mem_nil, or_false] at hlead
  rcases hlead with rfl | rfl | rfl
  · exact .inl ⟨_, href⟩
  · exact .inr (.inl ⟨_, href⟩)
  · exact .inr (.inr (.inl ⟨_, href⟩))

end GitRef

open GitRef

/-! ## Decisions -/

namespace StartRules

theorem matchesAny_simple {ps : List Simple} (h : ∀ p ∈ ps, p.Plain) (s : String) :
    matchesAny (ps.map Simple.text) s = true ↔ ∃ p ∈ ps, p.Matches s := by
  unfold matchesAny
  rw [List.any_map, List.any_eq_true]
  refine exists_congr fun p => and_congr_right fun hp => ?_
  rw [Function.comp_apply, Simple.parse_text (h p hp)]
  exact p.accepts_iff p.text s

/-- The name and the ref of a branch are one to every rule. -/
theorem starts_heads (r : StartRules) (kind : Event.Kind) {b : String} (hb : IsName b) :
    r.starts ⟨kind, b⟩ = r.starts ⟨kind, "refs/heads/" ++ b⟩ := by
  unfold starts
  rw [ofText_name hb, ofText_heads]
  cases kind <;> rfl

theorem starts_push_iff {pushes : List Simple} (h : ∀ p ∈ pushes, p.Plain) (pulls : List String)
    (ref : String) : starts ⟨pushes.map Simple.text, pulls⟩ ⟨.push, ref⟩ = true ↔
      ¬ "refs/tags/".toList <+: ref.toList ∧ ¬ "refs/pull/".toList <+: ref.toList ∧
        ∃ p ∈ pushes, p.Matches (withoutLead ["refs/heads/"] ref) := by
  unfold starts
  rcases ref_cases ref with ⟨name, rfl⟩ | ⟨name, rfl⟩ | ⟨rest, rfl⟩ | hname
  · have htags : ¬ "refs/tags/".toList <+: ("refs/heads/" ++ name).toList :=
      not_prefix_append (by decide) (by decide) name
    have hpull : ¬ "refs/pull/".toList <+: ("refs/heads/" ++ name).toList :=
      not_prefix_append (by decide) (by decide) name
    rw [ofText_heads, withoutLead_append]
    simp only [htags, hpull, not_false_eq_true, true_and]
    exact matchesAny_simple h name
  · rw [ofText_tags, String.toList_append]
    simp
  · rw [ofText_pull, String.toList_append]
    simp
  · rw [ofText_name hname, withoutLead_of_not_prefix (hname _ (by simp)), withoutLead_nil]
    simp only [hname "refs/tags/" (by simp), hname "refs/pull/" (by simp), not_false_eq_true,
      true_and]
    exact matchesAny_simple h ref

theorem starts_pullRequest_iff (pushes : List String) {pulls : List Simple}
    (h : ∀ p ∈ pulls, p.Plain) (ref : String) :
    starts ⟨pushes, pulls.map Simple.text⟩ ⟨.pullRequest, ref⟩ = true ↔
      ∃ p ∈ pulls, p.Matches (withoutLead ["refs/heads/", "refs/tags/"] ref) := by
  unfold starts
  rcases ref_cases ref with ⟨name, rfl⟩ | ⟨name, rfl⟩ | ⟨rest, rfl⟩ | hname
  · rw [ofText_heads, withoutLead_append]
    exact matchesAny_simple h name
  · have hheads : ¬ "refs/heads/".toList <+: ("refs/tags/" ++ name).toList :=
      not_prefix_append (by decide) (by decide) name
    rw [ofText_tags, withoutLead_of_not_prefix hheads, withoutLead_append]
    exact matchesAny_simple h name
  · -- a pull request's ref is matched as a whole
    have hheads : ¬ "refs/heads/".toList <+: ("refs/pull/" ++ rest).toList :=
      not_prefix_append (by decide) (by decide) rest
    have htags : ¬ "refs/tags/".toList <+: ("refs/pull/" ++ rest).toList :=
      not_prefix_append (by decide) (by decide) rest
    rw [ofText_pull, withoutLead_of_not_prefix hheads, withoutLead_of_not_prefix htags,
      withoutLead_nil]
    exact matchesAny_simple h _
  · rw [ofText_name hname, withoutLead_of_not_prefix (hname _ (by simp)),
      withoutLead_of_not_prefix (hname _ (by simp)), withoutLead_nil]
    exact matchesAny_simple h ref

/-- Under rules of simple patterns a push starts a run exactly if it is none to a tag or a pull
request and the branch matches, a pull request exactly if its branch, its tag or its whole ref
does, and nothing else ever does. A branch's name and its ref are decided alike, and the standard
rules start a run on every push to a branch and on every pull request. -/
theorem starts_simple (pushes pulls : List Simple) (hplain : ∀ p ∈ pushes ++ pulls, p.Plain) :
    let r : StartRules := ⟨pushes.map Simple.text, pulls.map Simple.text⟩
    (∀ ref, r.starts ⟨.push, ref⟩ = true ↔
      ¬ "refs/tags/".toList <+: ref.toList ∧ ¬ "refs/pull/".toList <+: ref.toList ∧
        ∃ p ∈ pushes, p.Matches (withoutLead ["refs/heads/"] ref)) ∧
    (∀ ref, r.starts ⟨.pullRequest, ref⟩ = true ↔
      ∃ p ∈ pulls, p.Matches (withoutLead ["refs/heads/", "refs/tags/"] ref)) ∧
    (∀ name ref, r.starts ⟨.other name, ref⟩ = false) ∧
    (∀ kind b, IsName b → r.starts ⟨kind, b⟩ = r.starts ⟨kind, "refs/heads/" ++ b⟩) ∧
    (∀ ref, ¬ "refs/tags/".toList <+: ref.toList → ¬ "refs/pull/".toList <+: ref.toList →
      standard.starts ⟨.push, ref⟩ = true) ∧
    ∀ ref, standard.starts ⟨.pullRequest, ref⟩ = true := by
  intro r
  have hpushes : ∀ p ∈ pushes, p.Plain := fun p hp => hplain p (List.mem_append_left _ hp)
  have hpulls : ∀ p ∈ pulls, p.Plain := fun p hp => hplain p (List.mem_append_right _ hp)
  -- the star of the standard rules: everything begins with nothing
  have hall : ∀ p ∈ [Simple.beginning ""], p.Plain := by decide
  have hany : ∀ s, ∃ p ∈ [Simple.beginning ""], p.Matches s := fun s =>
    ⟨.beginning "", List.mem_cons_self, s, String.empty_append.symm⟩
  refine ⟨starts_push_iff hpushes _, starts_pullRequest_iff _ hpulls, fun name ref => ?_,
    fun kind b => r.starts_heads kind, fun ref htags hpull => ?_, fun ref => ?_⟩
  · unfold starts
    cases ofText ref <;> rfl
  · exact (starts_push_iff hall _ ref).2 ⟨htags, hpull, hany _⟩
  · exact (starts_pullRequest_iff _ hall ref).2 (hany _)

/-- Pushes to `main` and to releases: a release branch starts a run under both its spellings, a tag
called `main` none, and pull requests go by their whole ref. -/
theorem starts_simple_releases :
    let pushes : List Simple := [.exactly "main", .beginning "release/"]
    let pulls : List Simple := [.beginning "refs/pull/"]
    let r : StartRules := ⟨["main", "release/*"], ["refs/pull/*"]⟩
    (∀ p ∈ pushes ++ pulls, p.Plain) ∧ IsName "release/1.0" ∧
      r.starts ⟨.push, "refs/heads/release/1.0"⟩ = true ∧
      r.starts ⟨.push, "release/1.0"⟩ = true ∧
      r.starts ⟨.push, "refs/tags/main"⟩ = false ∧
      r.starts ⟨.pullRequest, "refs/pull/7/merge"⟩ = true := by
  intro pushes pulls r
  have hplain : ∀ p ∈ pushes ++ pulls, p.Plain := by decide
  have hname : IsName "release/1.0" := by unfold IsName; decide
  obtain ⟨hpush, hpull, -, hheads, -⟩ := starts_simple pushes pulls hplain
  have hrelease : r.starts ⟨.push, "refs/heads/release/1.0"⟩ = true :=
    (hpush _).2 ⟨by decide, by decide, .beginning "release/", by simp [pushes], "1.0", by decide⟩
  refine ⟨hplain, hname, hrelease, (hheads .push _ hname).trans hrelease, ?_, ?_⟩
  · exact Bool.eq_false_iff.2 fun hstarts => ((hpush _).1 hstarts).1 (by decide)
  · exact (hpull _).2 ⟨.beginning "refs/pull/", by simp [pulls], "7/merge", by decide⟩

end StartRules

end CoverageRun
