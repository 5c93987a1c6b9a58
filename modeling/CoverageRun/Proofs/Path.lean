/-
Where paths lead, by their parts. A path's steps are its parts without a `.` at the head: joining
puts steps after steps, and a list of steps that a path can have is read back from its spelling, so
two spellings say the same place if and only if their steps are equal.
-/
import CoverageRun.Path
import CoverageRun.Proofs.Text.Lines

namespace CoverageRun

/-! ## Steps -/

namespace Part

/-- The text of a part that is a name. -/
def name? : Part → Option String
  | .name n => some n
  | _ => none

/-- A part that a piece between two slashes stands for: a step upwards or a proper name. -/
def IsStep (s : Part) : Prop := ofPiece? s.text.toList = some s ∧ '/' ∉ s.text.toList

theorem text_of_ofPiece? {cs : List Char} {s : Part} (h : ofPiece? cs = some s) :
    s.text.toList = cs := by
  unfold ofPiece? at h
  split at h <;> cases h
  · rfl
  · exact String.toList_ofList

theorem isStep_of_ofPiece? {cs : List Char} {s : Part} (hcs : '/' ∉ cs) (h : ofPiece? cs = some s) :
    s.IsStep := by
  unfold IsStep
  rw [text_of_ofPiece? h]
  exact ⟨h, hcs⟩

theorem IsStep.ne_root {s : Part} (h : s.IsStep) : s ≠ .root := by
  rintro rfl
  exact absurd h.2 (by decide)

theorem IsStep.ne_here {s : Part} (h : s.IsStep) : s ≠ .here := by
  rintro rfl
  exact absurd h.1 (by decide)

theorem IsStep.text_ne {s : Part} (h : s.IsStep) : s.text.toList ≠ [] := by
  intro he
  have := h.1
  rw [he] at this
  cases this

theorem IsStep.text_ne_here {s : Part} (h : s.IsStep) : s.text.toList ≠ ['.'] := by
  intro he
  have := h.1
  rw [he] at this
  cases this

end Part

namespace Path

/-- The parts of a path that say where it leads: all but a `.` at the head. -/
def steps (p : Path) : List Part := p.parts.filter (· ≠ .here)

/-- The steps that a text spells between its slashes. -/
def stepsIn (cs : List Char) : List Part := (Text.split '/' cs).filterMap Part.ofPiece?

theorem isStep_of_mem_stepsIn {cs : List Char} {s : Part} (h : s ∈ stepsIn cs) : s.IsStep := by
  obtain ⟨piece, hpiece, hs⟩ := List.mem_filterMap.1 h
  exact Part.isStep_of_ofPiece? (Text.not_mem_of_mem_split hpiece) hs

theorem filter_stepsIn (cs : List Char) : (stepsIn cs).filter (· ≠ .here) = stepsIn cs :=
  List.filter_eq_self.2 fun _ hs => decide_eq_true (isStep_of_mem_stepsIn hs).ne_here

theorem parts_eq (p : Path) :
    p.parts = (if p.isAbsolute then [.root]
      else if (Text.split '/' p.text.toList).head? = some ['.'] then [.here]
      else []) ++ stepsIn p.text.toList := by
  simp only [parts, stepsIn]
  split
  · rfl
  · split <;> rfl

/-- A path leads from the root, or from where it is seen, along what its text spells. -/
theorem steps_eq (p : Path) :
    p.steps = (if p.isAbsolute then [.root] else []) ++ stepsIn p.text.toList := by
  unfold steps
  rw [parts_eq, List.filter_append, filter_stepsIn]
  split
  · rfl
  · split <;> rfl

theorem isAbsolute_iff {p : Path} : p.isAbsolute = true ↔ .root ∈ p.steps := by
  rw [steps_eq, List.mem_append]
  constructor
  · intro h
    rw [if_pos h]
    exact .inl List.mem_cons_self
  · rintro (h | h)
    · by_contra habs
      rw [if_neg habs] at h
      cases h
    · exact absurd rfl (isStep_of_mem_stepsIn h).ne_root

theorem isAbsolute_of_steps_eq {p q : Path} (h : p.steps = q.steps) :
    p.isAbsolute = q.isAbsolute := by
  rw [Bool.eq_iff_iff, isAbsolute_iff, isAbsolute_iff, h]

theorem parts_of_isAbsolute {p : Path} (h : p.isAbsolute = true) : p.parts = p.steps := by
  rw [parts_eq, steps_eq, if_pos h, if_pos h]

theorem stepsIn_append (a b : List Char) : stepsIn (a ++ '/' :: b) = stepsIn a ++ stepsIn b := by
  unfold stepsIn
  rw [Text.split_append_sep, List.filterMap_append]

theorem isAbsolute_append {p : Path} (h : p.text ≠ "") (s : String) :
    (Path.mk (p.text ++ s)).isAbsolute = p.isAbsolute := by
  have hne : p.text.toList ≠ [] := fun he => h (String.toList_eq_nil_iff.1 he)
  unfold isAbsolute
  rw [String.toList_append, List.head?_append_of_ne_nil _ hne]

/-- Joining puts steps after steps, unless the path that is joined starts at the root. -/
theorem steps_join (p : Path) (q : String) :
    (p.join q).steps = if (Path.mk q).isAbsolute then (Path.mk q).steps
      else p.steps ++ (Path.mk q).steps := by
  unfold join
  by_cases habs : (Path.mk q).isAbsolute = true
  · simp only [habs, true_or, if_true]
  have hq : (Path.mk q).steps = stepsIn q.toList := by simp [steps_eq, habs]
  simp only [habs, Bool.false_eq_true, false_or, if_false]
  split
  · rename_i hempty
    have hp : p.steps = [] := by rw [steps_eq]; unfold isAbsolute; rw [hempty]; rfl
    rw [hp, List.nil_append]
  · rename_i hne
    split
    · rename_i hslash
      obtain ⟨front, hfront⟩ := Text.eq_append_of_endsWith hslash
      have hfront' : stepsIn p.text.toList = stepsIn front := by
        rw [hfront, stepsIn_append]; exact List.append_nil _
      rw [hq, steps_eq, steps_eq, isAbsolute_append hne, hfront', String.toList_append, hfront,
        List.append_assoc, List.singleton_append, stepsIn_append, List.append_assoc]
    · have htext : (p.text ++ "/" ++ q).toList = p.text.toList ++ '/' :: q.toList := by
        simp [String.toList_append]
      rw [hq, steps_eq, steps_eq, String.append_assoc, isAbsolute_append hne, ← String.append_assoc,
        htext, stepsIn_append, List.append_assoc]

/-! ## Routes -/

/-- Parts that spell out a path with no `.`: steps, with the root before them or not. -/
def IsRoute (ps : List Part) : Prop :=
  ∃ lead steps, ps = lead ++ steps ∧ (lead = [] ∨ lead = [.root]) ∧ ∀ s ∈ steps, s.IsStep

theorem isRoute_steps (p : Path) : IsRoute p.steps := by
  refine ⟨_, _, steps_eq p, ?_, fun s hs => isStep_of_mem_stepsIn hs⟩
  split
  · exact .inr rfl
  · exact .inl rfl

theorem isRoute_of_isStep {ss : List Part} (h : ∀ s ∈ ss, s.IsStep) : IsRoute ss :=
  ⟨[], ss, rfl, .inl rfl, h⟩

theorem IsRoute.drop {ps : List Part} (h : IsRoute ps) (n : Nat) : IsRoute (ps.drop n) := by
  cases n with
  | zero => exact h
  | succ n =>
    obtain ⟨lead, steps, rfl, rfl | rfl, hsteps⟩ := h
    · exact isRoute_of_isStep fun s hs => hsteps s (List.drop_subset _ _ hs)
    · exact isRoute_of_isStep fun s hs => hsteps s (List.drop_subset _ _ hs)

theorem filter_route {ps : List Part} (h : IsRoute ps) : ps.filter (· ≠ .here) = ps := by
  obtain ⟨lead, steps, rfl, hlead, hsteps⟩ := h
  refine List.filter_eq_self.2 fun s hs => decide_eq_true ?_
  rcases List.mem_append.1 hs with hs | hs
  · rcases hlead with rfl | rfl
    · cases hs
    · rw [List.mem_singleton.1 hs]; decide
  · exact (hsteps s hs).ne_here

theorem split_joinText {ss : List Part} (hne : ss ≠ []) (h : ∀ s ∈ ss, s.IsStep) :
    Text.split '/' (Text.joinText "/" (ss.map Part.text)).toList =
      ss.map fun s => s.text.toList := by
  have hpieces : ∀ p ∈ (ss.map Part.text).map String.toList, '/' ∉ p := by
    simp only [List.map_map, List.mem_map]
    rintro p ⟨s, hs, rfl⟩
    exact (h s hs).2
  unfold Text.joinText
  rw [String.toList_ofList, show "/".toList = ['/'] from rfl,
    Text.split_join (by simpa using hne) hpieces, List.map_map]
  rfl

theorem stepsIn_joinText {ss : List Part} (h : ∀ s ∈ ss, s.IsStep) :
    stepsIn (Text.joinText "/" (ss.map Part.text)).toList = ss := by
  by_cases hne : ss = []
  · subst hne; rfl
  · unfold stepsIn
    rw [split_joinText hne h, List.filterMap_map]
    have : ∀ s ∈ ss, (Part.ofPiece? ∘ fun s => s.text.toList) s = some s := fun s hs => (h s hs).1
    rw [List.filterMap_congr this, List.filterMap_some]

theorem ofParts_of_isStep {ss : List Part} (h : ∀ s ∈ ss, s.IsStep) :
    ofParts ss = ⟨Text.joinText "/" (ss.map Part.text)⟩ := by
  unfold ofParts
  split
  · exact absurd rfl (h .root List.mem_cons_self).ne_root
  · rfl

/-- Steps alone spell a path that begins neither at the root nor with a `.`. -/
theorem parts_ofParts_of_isStep {ss : List Part} (h : ∀ s ∈ ss, s.IsStep) :
    (ofParts ss).parts = ss := by
  rw [ofParts_of_isStep h, parts_eq, stepsIn_joinText h]
  cases ss with
  | nil => rfl
  | cons s r =>
    have hs : s.IsStep := h s List.mem_cons_self
    have hsplit := split_joinText (List.cons_ne_nil s r) h
    have hrel : (Path.mk (Text.joinText "/" ((s :: r).map Part.text))).isAbsolute = false := by
      unfold isAbsolute
      refine Bool.eq_false_iff.2 fun habs => hs.text_ne ?_
      have := Text.head?_split_of_head? (eq_of_beq habs)
      rwa [hsplit, List.map_cons, List.head?_cons, Option.some.injEq] at this
    have hhead : (Text.split '/' (Text.joinText "/" ((s :: r).map Part.text)).toList).head? ≠
        some ['.'] := by
      rw [hsplit]; exact fun he => hs.text_ne_here (Option.some.inj he)
    rw [if_neg (Bool.eq_false_iff.1 hrel), if_neg hhead, List.nil_append]

/-- A route is read back from its spelling. -/
theorem parts_ofParts {ps : List Part} (h : IsRoute ps) : (ofParts ps).parts = ps := by
  obtain ⟨lead, ss, rfl, rfl | rfl, hss⟩ := h
  · rw [List.nil_append, parts_ofParts_of_isStep hss]
  · have htext : (ofParts ([.root] ++ ss)).text.toList =
        [] ++ '/' :: (Text.joinText "/" (ss.map Part.text)).toList := String.toList_append
    have habs : (ofParts ([.root] ++ ss)).isAbsolute = true := by
      unfold isAbsolute; rw [htext]; rfl
    rw [parts_eq, htext, stepsIn_append, stepsIn_joinText hss, if_pos habs]
    rfl

theorem ofParts_inj {ps qs : List Part} (hps : IsRoute ps) (hqs : IsRoute qs)
    (h : ofParts ps = ofParts qs) : ps = qs := by
  rw [← parts_ofParts hps, h, parts_ofParts hqs]

theorem steps_ofParts {ps : List Part} (h : IsRoute ps) : (ofParts ps).steps = ps := by
  unfold steps
  rw [parts_ofParts h, filter_route h]

theorem parts_normalise (p : Path) : p.normalise.parts = p.steps := parts_ofParts (isRoute_steps p)

theorem steps_normalise (p : Path) : p.normalise.steps = p.steps := steps_ofParts (isRoute_steps p)

/-! ## Names -/

/-- The names that a path spells. -/
def names (p : Path) : List String := p.parts.filterMap Part.name?

theorem names_eq (p : Path) : p.names = (stepsIn p.text.toList).filterMap Part.name? := by
  unfold names
  rw [parts_eq, List.filterMap_append]
  split
  · rfl
  · split <;> rfl

/-- The pieces between slashes that stand for something. -/
def properPieces (cs : List Char) : List (List Char) :=
  (Text.split '/' cs).filter fun piece => piece ≠ [] ∧ piece ≠ ['.']

theorem ofPiece?_eq_name {piece : List Char} (hempty : piece ≠ []) (hhere : piece ≠ ['.'])
    (hup : piece ≠ ['.', '.']) : Part.ofPiece? piece = some (.name (String.ofList piece)) := by
  unfold Part.ofPiece?
  split <;> first | rfl | contradiction

theorem up_mem_parts_iff {p : Path} :
    .up ∈ p.parts ↔ ['.', '.'] ∈ Text.split '/' p.text.toList := by
  have hpiece : ∀ piece, Part.ofPiece? piece = some .up ↔ piece = ['.', '.'] := by
    intro piece
    unfold Part.ofPiece?
    split <;> simp_all
  have hparts : .up ∈ p.parts ↔ .up ∈ stepsIn p.text.toList := by
    rw [parts_eq]
    split
    · simp
    · split <;> simp
  simp [hparts, stepsIn, hpiece]

/-- A path with no part that leads upwards spells names. -/
theorem names_eq_map {p : Path} (hup : .up ∉ p.parts) :
    p.names = (properPieces p.text.toList).map String.ofList ∧
      stepsIn p.text.toList = p.names.map Part.name := by
  have hsteps : stepsIn p.text.toList =
      (properPieces p.text.toList).map fun piece => .name (String.ofList piece) := by
    rw [up_mem_parts_iff] at hup
    unfold stepsIn properPieces
    generalize Text.split '/' p.text.toList = pieces at hup
    induction pieces with
    | nil => rfl
    | cons piece pieces ih =>
      simp only [List.mem_cons, not_or] at hup
      by_cases hproper : piece ≠ [] ∧ piece ≠ ['.']
      · rw [List.filter_cons_of_pos (by simpa using hproper), List.map_cons, ← ih hup.2,
          List.filterMap_cons_some (ofPiece?_eq_name hproper.1 hproper.2 (Ne.symm hup.1))]
      · have hnone : Part.ofPiece? piece = none := by
          rcases not_and_or.1 hproper with h | h <;> rw [not_not.1 h] <;> rfl
        rw [List.filter_cons_of_neg (by simpa using hproper), ← ih hup.2,
          List.filterMap_cons_none hnone]
  have hnames : p.names = (properPieces p.text.toList).map String.ofList := by
    rw [names_eq, hsteps, List.filterMap_map]
    exact congrFun (List.filterMap_eq_map (f := String.ofList)) _
  refine ⟨hnames, ?_⟩
  rw [hnames, hsteps, List.map_map]
  rfl

end Path

end CoverageRun
