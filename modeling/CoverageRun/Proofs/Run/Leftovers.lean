/-
What an earlier run left, and that all of it is cleared away. A leftover is a profile that is
collected, or a file or a link that the path of an output names. Where none of them stands on the
way to an output, clearing takes exactly the leftovers; so trees that differ in their leftovers only
are the same tree afterwards.
-/
import CoverageRun.Proofs.Aggregation.Failure
import CoverageRun.Proofs.Files.Naming
import CoverageRun.Proofs.Profile.Collection
import CoverageRun.Proofs.Run.Course

namespace CoverageRun

open Files Aggregation

/-! ## Trees without some entries -/

namespace Files.Tree

theorem entry?_congr {t t' : Tree} {loc : Location}
    (h : t'.entries.get? loc = t.entries.get? loc) : t'.entry? loc = t.entry? loc := by
  unfold entry?
  rw [h]

theorem get?_of_entry? {t : Tree} {loc : Location} {e : Entry} (hloc : loc ≠ [])
    (h : t.entry? loc = some e) : t.entries.get? loc = some e := by
  unfold entry? at h
  rwa [if_neg hloc] at h

/-- A tree without some of the entries of another, which are at locations with a property. -/
structure Without (gone : Location → Prop) (t t' : Tree) : Prop where
  home : t'.home = t.home
  entries : ∀ loc, t'.entries.get? loc = t.entries.get? loc ∨
    gone loc ∧ t'.entries.get? loc = none

variable {gone : Location → Prop} {t t' : Tree} {p : Path} {loc : Location}

theorem Without.erase (h : Without gone t t') (hloc : gone loc) : Without gone t (t'.erase loc) := by
  refine ⟨h.home, fun l => ?_⟩
  rw [get?_erase]
  split
  · rename_i hl
    exact .inr ⟨hl ▸ hloc, rfl⟩
  · exact h.entries l

theorem Without.lossOf (h : Without gone t t') (hroot : ¬ gone []) : t'.LossOf t := by
  refine ⟨h.home, fun loc => ?_⟩
  rcases h.entries loc with hsame | ⟨hgone, hnone⟩
  · exact .inl (entry?_congr hsame)
  · right
    unfold entry?
    rw [if_neg fun hloc : loc = [] => hroot (hloc ▸ hgone), hnone]

/-- Discarding takes what the path named before anything was gone, if it named something. -/
theorem Without.discard (h : Without gone t t') (hroot : ¬ gone [])
    (hnamed : ∀ loc, t.named? p = some loc → gone loc) : Without gone t (t'.discard p) := by
  rw [discard_eq]
  cases hp : t'.named? p with
  | none => exact h
  | some loc => exact h.erase (hnamed loc ((h.lossOf hroot).named? hp))

/-- After that nothing is left there, if the way there was not gone. -/
theorem Without.get?_discard (h : Without gone t t') (hp : t.named? p = some loc)
    (htrail : ∀ l ∈ t.trailOf p, ¬ gone l) : (t'.discard p).entries.get? loc = none := by
  rw [discard_eq]
  rcases h.entries loc with hsame | ⟨-, hnone⟩
  · have hp' : t'.named? p = some loc := by
      refine named?_congr hp h.home (fun l hl => entry?_congr ?_) (entry?_congr hsame)
      exact (h.entries l).resolve_right fun hgone => htrail l hl hgone.1
    rw [hp']
    simp only [get?_erase, if_true]
  · split
    · rw [get?_erase]
      split
      · rfl
      · exact hnone
    · exact hnone

/-- What is gone does not come back where more is discarded. -/
theorem get?_discard_of_none (h : t.entries.get? loc = none) (p : Path) :
    (t.discard p).entries.get? loc = none := by
  rw [discard_eq]
  split
  · rw [get?_erase, h, ite_self]
  · exact h

theorem get?_foldl_discard_of_none : ∀ (ps : List Path) {t : Tree}, t.entries.get? loc = none →
    (ps.foldl Tree.discard t).entries.get? loc = none
  | [], _, h => h
  | p :: ps, _, h => get?_foldl_discard_of_none ps (get?_discard_of_none h p)

theorem Without.foldl_discard (hroot : ¬ gone []) : ∀ {ps : List Path} {t' : Tree},
    Without gone t t' → (∀ p ∈ ps, ∀ loc, t.named? p = some loc → gone loc) →
      Without gone t (ps.foldl Tree.discard t')
  | [], _, h, _ => h
  | p :: ps, t', h, hnamed => by
    have hp : Without gone t (t'.discard p) := h.discard hroot (hnamed p List.mem_cons_self)
    rw [List.foldl_cons]
    exact hp.foldl_discard hroot fun q hq => hnamed q (List.mem_cons_of_mem p hq)

theorem Without.get?_foldl_discard (hroot : ¬ gone []) (hp : t.named? p = some loc)
    (htrail : ∀ l ∈ t.trailOf p, ¬ gone l) : ∀ {ps : List Path} {t' : Tree}, Without gone t t' →
      (∀ q ∈ ps, ∀ loc, t.named? q = some loc → gone loc) → p ∈ ps →
      (ps.foldl Tree.discard t').entries.get? loc = none
  | q :: ps, t', h, hnamed, hmem => by
    rw [List.foldl_cons]
    rcases List.mem_cons.1 hmem with rfl | hmem
    · exact get?_foldl_discard_of_none ps (h.get?_discard hp htrail)
    · have hq : Without gone t (t'.discard q) := h.discard hroot (hnamed q List.mem_cons_self)
      exact hq.get?_foldl_discard hroot hp htrail
        (fun q' hq' => hnamed q' (List.mem_cons_of_mem q hq')) hmem

end Files.Tree

namespace Run.Pipeline

variable {p : Pipeline} {t t₁ t₂ : Tree} {loc : Location}

/-! ## Leftovers -/

/-- What an earlier run left in a tree: profiles that are collected, and files and links at the paths
of the outputs. -/
def Leftover (p : Pipeline) (t : Tree) (loc : Location) : Prop :=
  loc ∈ Profile.collected t p.directory ∨
    ∃ q ∈ outputs p.aggregation.reportPath, t.named? q = some loc

/-- No leftover stands on the way to an output. -/
def Untangled (p : Pipeline) (t : Tree) : Prop :=
  ∀ q ∈ outputs p.aggregation.reportPath, ∀ q' ∈ outputs p.aggregation.reportPath,
    ∀ loc ∈ t.named? q, loc ∉ t.trailOf q'

instance (p : Pipeline) (t : Tree) : Decidable (p.Untangled t) :=
  inferInstanceAs (Decidable (∀ q ∈ _, ∀ q' ∈ _, ∀ loc ∈ t.named? q, loc ∉ t.trailOf q'))

instance (p : Pipeline) (t : Tree) (loc : Location) : Decidable (p.Leftover t loc) :=
  inferInstanceAs (Decidable (loc ∈ Profile.collected t p.directory ∨ ∃ q ∈ _, t.named? q = some loc))

theorem Leftover.ne_nil (h : p.Leftover t loc) : loc ≠ [] := by
  rcases h with hcollected | ⟨q, -, hnamed⟩
  · obtain ⟨dir, names, -, hleads, rfl⟩ := Profile.mem_collected.1 hcollected
    cases hleads <;> simp
  · exact Tree.ne_nil_of_named? hnamed

/-- A leftover is a file or a link. -/
theorem Leftover.entry (h : p.Leftover t loc) : ∃ e, t.entries.get? loc = some e ∧ e ≠ .directory := by
  rcases h with hcollected | ⟨q, -, hnamed⟩
  · obtain ⟨b, x, hentry⟩ := Profile.file_of_mem_collected hcollected
    exact ⟨_, hentry, by simp⟩
  · obtain ⟨d, name, e, -, -, -, hentry, he⟩ := Tree.exists_of_named? hnamed
    exact ⟨e, Tree.get?_of_entry? (Tree.ne_nil_of_named? hnamed) hentry, he⟩

/-- The way to an output leads through no leftover. -/
theorem Untangled.not_leftover (hp : p.Untangled t) {q : Path}
    (hq : q ∈ outputs p.aggregation.reportPath) (hloc : loc ∈ t.trailOf q) : ¬ p.Leftover t loc := by
  rintro (hcollected | ⟨q', hq', hnamed⟩)
  · obtain ⟨b, x, hentry⟩ := Profile.file_of_mem_collected hcollected
    have hfile : t.entry? loc = some (.file b x) := by
      have hne : loc ≠ [] := Leftover.ne_nil (p := p) (.inl hcollected)
      unfold Tree.entry?
      rw [if_neg hne, hentry]
    rcases Tree.entry?_of_mem_trailOf hloc with hdir | ⟨target, hlink⟩
    · rw [hfile] at hdir
      cases hdir
    · rw [hfile] at hlink
      cases hlink
  · exact hp q' hq' q hq loc hnamed hloc

/-! ## Clearing -/

theorem clearedTree_eq (p : Pipeline) (t : Tree) :
    p.clearedTree t = (outputs p.aggregation.reportPath).foldl Tree.discard
      (Profile.removeAll t p.directory).2 := rfl

theorem without_removeAll (p : Pipeline) (t : Tree) :
    Tree.Without (p.Leftover t) t (Profile.removeAll t p.directory).2 := by
  refine ⟨Profile.home_removeAll t p.directory, fun loc => ?_⟩
  rw [Profile.get?_removeAll]
  split
  · rename_i hcollected
    exact .inr ⟨.inl hcollected, rfl⟩
  · exact .inl rfl

/-- Clearing takes nothing but leftovers. -/
theorem without_clearedTree (p : Pipeline) (t : Tree) :
    Tree.Without (p.Leftover t) t (p.clearedTree t) := by
  rw [clearedTree_eq]
  exact (p.without_removeAll t).foldl_discard (fun h => h.ne_nil rfl)
    fun q hq _ hnamed => .inr ⟨q, hq, hnamed⟩

/-- Where no leftover stands on the way to an output, it takes all of them. -/
theorem Untangled.get?_of_leftover (hp : p.Untangled t) (hloc : p.Leftover t loc) :
    (p.clearedTree t).entries.get? loc = none := by
  rw [clearedTree_eq]
  rcases hloc with hcollected | ⟨q, hq, hnamed⟩
  · have hremoved := Profile.get?_removeAll t p.directory loc
    rw [if_pos hcollected] at hremoved
    exact Tree.get?_foldl_discard_of_none _ hremoved
  · exact (p.without_removeAll t).get?_foldl_discard (fun h => h.ne_nil rfl) hnamed
      (fun l hl => hp.not_leftover hq hl) (fun q hq loc hnamed => .inr ⟨q, hq, hnamed⟩) hq

theorem get?_clearedTree (p : Pipeline) (hloc : ¬ p.Leftover t loc) :
    (p.clearedTree t).entries.get? loc = t.entries.get? loc :=
  ((p.without_clearedTree t).entries loc).resolve_right fun h => hloc h.1

/-! ## Trees that differ in leftovers -/

/-- Trees that are the same but for leftovers: wherever they differ, nothing or a leftover of its own
stands in each. -/
structure SameBut (p : Pipeline) (t₁ t₂ : Tree) : Prop where
  home : t₂.home = t₁.home
  directory : Profile.directoryAt? t₂ p.directory = Profile.directoryAt? t₁ p.directory
  entries : ∀ loc, t₂.entries.get? loc = t₁.entries.get? loc ∨
    (t₁.entries.get? loc = none ∨ p.Leftover t₁ loc) ∧
      (t₂.entries.get? loc = none ∨ p.Leftover t₂ loc)

/-- Only where something stands there can be a difference. -/
theorem sameBut_iff : p.SameBut t₁ t₂ ↔
    t₂.home = t₁.home ∧ Profile.directoryAt? t₂ p.directory = Profile.directoryAt? t₁ p.directory ∧
      ∀ loc ∈ t₁.entries.keys ++ t₂.entries.keys, t₂.entries.get? loc = t₁.entries.get? loc ∨
        (t₁.entries.get? loc = none ∨ p.Leftover t₁ loc) ∧
          (t₂.entries.get? loc = none ∨ p.Leftover t₂ loc) := by
  constructor
  · rintro ⟨hhome, hdirectory, hentries⟩
    exact ⟨hhome, hdirectory, fun loc _ => hentries loc⟩
  · rintro ⟨hhome, hdirectory, hentries⟩
    refine ⟨hhome, hdirectory, fun loc => ?_⟩
    by_cases hloc : loc ∈ t₁.entries.keys ++ t₂.entries.keys
    · exact hentries loc hloc
    · rw [List.mem_append, not_or] at hloc
      rw [Store.OrderedMap.get?_eq_none_of_notMem hloc.1,
        Store.OrderedMap.get?_eq_none_of_notMem hloc.2]
      exact .inl rfl

instance (p : Pipeline) (t₁ t₂ : Tree) : Decidable (p.SameBut t₁ t₂) := decidable_of_iff' _ sameBut_iff

theorem SameBut.symm (h : p.SameBut t₁ t₂) : p.SameBut t₂ t₁ :=
  ⟨h.home.symm, h.directory.symm, fun loc => (h.entries loc).imp Eq.symm And.symm⟩

/-- What stands in one tree and is no leftover stands in the other. -/
theorem SameBut.get?_eq (h : p.SameBut t₁ t₂) {e : Entry} (he : t₁.entries.get? loc = some e)
    (hloc : ¬ p.Leftover t₁ loc) : t₂.entries.get? loc = some e := by
  rcases h.entries loc with hsame | ⟨hnone | hleft, -⟩
  · rw [hsame, he]
  · rw [he] at hnone
    cases hnone
  · exact absurd hleft hloc

/-- A leftover of one tree that stands in the other, too, is a leftover there. -/
theorem SameBut.leftover (h : p.SameBut t₁ t₂) (h₁ : p.Untangled t₁) (hloc : p.Leftover t₁ loc)
    (hsame : t₂.entries.get? loc = t₁.entries.get? loc) : p.Leftover t₂ loc := by
  rcases hloc with hcollected | ⟨q, hq, hnamed⟩
  · refine .inl (Profile.mem_collected_congr hcollected h.directory (fun l hl => ?_) hsame)
    -- a directory is no leftover
    refine h.get?_eq hl fun hleft => ?_
    obtain ⟨e, hentry, he⟩ := hleft.entry
    rw [hl] at hentry
    exact he (Option.some.inj hentry).symm
  · refine .inr ⟨q, hq, Tree.named?_congr hnamed h.home (fun l hl => ?_) (Tree.entry?_congr hsame)⟩
    by_cases hroot : l = []
    · rw [hroot]
      rfl
    have hentry : ∃ e, t₁.entry? l = some e := by
      rcases Tree.entry?_of_mem_trailOf hl with hdir | ⟨target, hlink⟩
      · exact ⟨_, hdir⟩
      · exact ⟨_, hlink⟩
    obtain ⟨e, he⟩ := hentry
    have hget := Tree.get?_of_entry? hroot he
    exact Tree.entry?_congr ((h.get?_eq hget (h₁.not_leftover hq hl)).trans hget.symm)

/-- Trees that are the same but for leftovers are the same when these are cleared away. -/
theorem SameBut.clearedTree (h : p.SameBut t₁ t₂) (h₁ : p.Untangled t₁) (h₂ : p.Untangled t₂) :
    p.clearedTree t₂ = p.clearedTree t₁ := by
  have hhome : (p.clearedTree t₂).home = (p.clearedTree t₁).home := by
    rw [(p.without_clearedTree t₁).home, (p.without_clearedTree t₂).home, h.home]
  have hentries : (p.clearedTree t₂).entries = (p.clearedTree t₁).entries := by
    refine Store.OrderedMap.ext_get? fun loc => ?_
    by_cases hleft₁ : p.Leftover t₁ loc <;> by_cases hleft₂ : p.Leftover t₂ loc
    · rw [h₁.get?_of_leftover hleft₁, h₂.get?_of_leftover hleft₂]
    · rw [h₁.get?_of_leftover hleft₁, p.get?_clearedTree hleft₂]
      rcases h.entries loc with hsame | ⟨-, hfree⟩
      · exact absurd (h.leftover h₁ hleft₁ hsame) hleft₂
      · exact hfree.resolve_right hleft₂
    · rw [p.get?_clearedTree hleft₁, h₂.get?_of_leftover hleft₂]
      rcases h.entries loc with hsame | ⟨hfree, -⟩
      · exact absurd (h.symm.leftover h₂ hleft₂ hsame.symm) hleft₁
      · exact (hfree.resolve_right hleft₁).symm
    · rw [p.get?_clearedTree hleft₁, p.get?_clearedTree hleft₂]
      rcases h.entries loc with hsame | ⟨hfree₁, hfree₂⟩
      · exact hsame
      · rw [hfree₁.resolve_right hleft₁, hfree₂.resolve_right hleft₂]
  cases hc₁ : p.clearedTree t₁
  cases hc₂ : p.clearedTree t₂
  rw [hc₁, hc₂] at hhome hentries
  cases hhome
  cases hentries
  rfl

end Run.Pipeline

end CoverageRun
