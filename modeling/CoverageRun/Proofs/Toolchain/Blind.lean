/-
Work that does not look at the tree. It comes to the same in every tree and leaves each as it found
it; so is work put together of such work, and a command is such work where the host runs it without
looking at the tree.
-/
import CoverageRun.Proofs.Toolchain.Protocol

namespace CoverageRun

variable {σ α β : Type}

/-- A host that runs a command without looking at the tree, which it leaves as it is. -/
def Host.BlindTo (h : Host σ) (c : Command) : Prop :=
  ∀ t t' s, h.run c t' s = ((h.run c t s).1, t', (h.run c t s).2.2)

theorem Host.BlindTo.recorded {h : Host σ} {c : Command} (hc : h.BlindTo c) : h.recorded.BlindTo c := by
  intro t t' s
  unfold Host.recorded
  simp only [hc t t' s.1]

/-- The world with another tree. -/
abbrev World.withTree (w : World σ) (t : Files.Tree) : World σ := { w with tree := t }

/-- Work that comes to the same in every tree, and leaves it as it is. -/
def Blind (act : Action σ α) : Prop :=
  ∀ w t, outcome act (w.withTree t) = ((outcome act w).1, (outcome act w).2.withTree t)

namespace Blind

theorem tree_eq {act : Action σ α} (h : Blind act) (w : World σ) : (outcome act w).2.tree = w.tree :=
  congrArg (·.2.tree) (h w w.tree)

theorem pure (a : α) : Blind (pure a : Action σ α) := fun _ _ => rfl

theorem throw (halt : Halt) : Blind (throw halt : Action σ α) := fun _ _ => rfl

theorem bind {act : Action σ α} {f : α → Action σ β} (hact : Blind act) (hf : ∀ a, Blind (f a)) :
    Blind (act >>= f) := by
  intro w t
  rw [outcome_bind, outcome_bind, hact w t]
  rcases outcome act w with ⟨halt | a, w'⟩
  · rfl
  · exact hf a w' t

theorem tryCatch {act : Action σ α} {handler : Halt → Action σ α} (hact : Blind act)
    (hhandler : ∀ halt, Blind (handler halt)) : Blind (tryCatch act handler) := by
  intro w t
  rw [outcome_tryCatch, outcome_tryCatch, hact w t]
  rcases outcome act w with ⟨halt | a, w'⟩
  · exact hhandler halt w' t
  · rfl

theorem ofExcept {ε : Type} (failure : ε → Failure) (r : Except ε α) :
    Blind (Action.ofExcept failure r : Action σ α) := by
  cases r with
  | ok a => exact pure a
  | error e => exact throw _

theorem issue {h : Host σ} {c : Command} (hc : h.BlindTo c) : Blind (Action.issue h c) := by
  intro w t
  rw [Action.outcome_issue, Action.outcome_issue, hc w.tree t w.host]

end Blind

/-! ## Provisioning -/

namespace Toolchain

variable {h : Host σ} {s : Site} {spec : Needs}

theorem blind_query {c : String × List String} (hc : h.BlindTo (s.command c)) : Blind (query h s c) :=
  .bind (.issue hc) fun out => by
    split
    · exact .pure _
    · exact .throw _

theorem blind_install {c : String × List String} (hc : h.BlindTo (s.command c)) (complaint : String) :
    Blind (install h s c complaint) :=
  .bind (.issue hc) fun out => by
    split
    · exact .pure _
    · exact .throw _

theorem blind_hasTool {tool : String} (hc : h.BlindTo (s.command (askVersion tool))) :
    Blind (hasTool h s tool) := by
  unfold hasTool
  refine .tryCatch (.bind (.issue hc) fun out => .pure _) fun halt => ?_
  split
  · exact .pure _
  · exact .throw _

theorem blind_addMissing {channel : String} {entries : List String} : ∀ {cs : List String},
    (∀ c ∈ cs, listsComponent entries c = false → h.BlindTo (s.command (addComponent channel c))) →
      Blind (addMissing h s channel entries cs)
  | [], _ => .pure _
  | c :: cs, hcs => by
    have hrest : Blind (addMissing h s channel entries cs) :=
      blind_addMissing fun c' hc' => hcs c' (List.mem_cons_of_mem c hc')
    unfold addMissing
    split
    · exact hrest
    · rename_i hmissing
      have hc := hcs c List.mem_cons_self (Bool.eq_false_iff.2 hmissing)
      exact .bind (blind_install hc _) fun _ => .bind hrest fun _ => .pure _

/-- Something is installed unless it is there, before work that is blind. -/
theorem blind_unless {there : Bool} {c : String × List String} {complaint : String} {act : Action σ α}
    (hc : there = false → h.BlindTo (s.command c)) (hact : Blind act) :
    Blind (do
      if !there then install h s c complaint
      act) := by
  cases there with
  | true => exact hact
  | false => exact .bind (blind_install (hc rfl) complaint) fun _ => hact

/-- Provisioning is blind where the host is blind to all commands that it may issue. -/
theorem blind_provision (hplan : ∀ i, ∀ c ∈ plan s spec i, h.BlindTo c) :
    Blind (provision h s spec) := by
  have hfurnish : ∀ listed, Blind (furnish h s spec listed) := by
    intro listed
    have hlist := hplan ⟨"", "", true⟩ (s.command (listComponents spec.channel)) (by simp [plan, planFor])
    have hask := hplan ⟨"", "", true⟩ (s.command (askVersion spec.tool)) (by simp [plan, planFor])
    have hinstall := hplan ⟨"", "", false⟩ (s.command (installTool spec.tool)) (by simp [plan, planFor])
    refine .bind (blind_query hlist) fun listing => .bind (blind_addMissing fun c hc hmissing => ?_)
      fun added => .bind (blind_hasTool hask) fun present =>
        blind_unless (fun _ => hinstall) (.pure _)
    refine hplan ⟨"", listing, true⟩ _ ?_
    simp only [plan, planFor, List.mem_append]
    exact .inr (.inr (.inr (.inl (List.mem_map_of_mem (List.mem_filter.2 ⟨hc, by simp [hmissing]⟩)))))
  have hsecure : ∀ channels, Blind (secure h s spec channels) := by
    intro channels
    refine blind_unless (fun hlisted => hplan ⟨channels, "", true⟩ _ ?_) (hfurnish _)
    simp [plan, hlisted]
  rw [provision_eq]
  exact .bind (.ofExcept _ _) fun _ =>
    .bind (blind_query (hplan ⟨"", "", true⟩ _ (by simp [plan]))) hsecure

end Toolchain

end CoverageRun
