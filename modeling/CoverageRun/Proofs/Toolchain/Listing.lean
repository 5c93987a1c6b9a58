/-
What listings show. A listing with a line for each thing installed shows what its lines show, in
whichever order they stand; and the line of something whose name has no blank shows that name, also
where the name has lost the ending it had before it became stable. Of any text, whoever has written
it, a listing is said to show a name without the tests that look for it.
-/
import CoverageRun.Proofs.Text.Lines
import CoverageRun.Toolchain.Listing
import Mathlib.Data.List.TakeWhile

namespace CoverageRun.Toolchain

open Text

/-! ## Words -/

/-- A name that holds no blank. -/
def IsWord (name : String) : Prop := ∀ c ∈ name.toList, isBlank c = false

instance (name : String) : Decidable (IsWord name) :=
  decidable_of_iff ((name.toList.all fun c => !isBlank c) = true) (by simp [IsWord])

theorem trim_of_isWord {name : String} (h : IsWord name) : trim name.toList = name.toList :=
  trim_eq_self (fun c hc => h c (List.mem_of_head? hc)) fun c hc => h c (List.mem_of_getLast? hc)

theorem firstWord?_of_isWord {name : String} (h : IsWord name) (hne : name.toList ≠ []) :
    firstWord? name.toList = some name.toList := by
  obtain ⟨c, r, hcr⟩ := List.exists_cons_of_ne_nil hne
  have hstart : trimStart name.toList = name.toList := by
    rw [trimStart, hcr, List.dropWhile_cons_of_neg (by simp [h c (hcr ▸ List.mem_cons_self)])]
  have htake : name.toList.takeWhile (fun c => !isBlank c) = name.toList :=
    List.takeWhile_eq_self_iff.2 fun c hc => by rw [h c hc, Bool.not_false]
  rw [firstWord?, hstart, htake, hcr]

/-- The name without its ending, or as it is where it has none. -/
theorem stableName_cases (component : String) :
    component = stableName component ++ "-preview" ∨
      stableName component = component ∧ ∀ base, component ≠ base ++ "-preview" := by
  unfold stableName beforeText? before?
  cases hrest : after? "-preview".toList.reverse component.toList.reverse with
  | none =>
    refine .inr ⟨rfl, ?_⟩
    rintro base rfl
    rw [String.toList_append, List.reverse_append, after?_append] at hrest
    cases hrest
  | some rest =>
    refine .inl (String.toList_inj.1 ?_)
    simpa using congrArg List.reverse (eq_of_after? hrest)

/-- The stable name of a component is the beginning of its name. -/
theorem stableName_isPrefix (component : String) :
    (stableName component).toList <+: component.toList := by
  rcases stableName_cases component with hpreview | ⟨hsame, -⟩
  · conv_rhs => rw [hpreview, String.toList_append]
    exact List.prefix_append _ _
  · simp only [hsame, List.prefix_refl]

theorem isWord_stableName {component : String} (h : IsWord component) :
    IsWord (stableName component) :=
  fun c hc => h c ((stableName_isPrefix component).subset hc)

/-! ## Things installed -/

/-- Something that is installed: its name, and the target it was built for. -/
structure Installed where
  name : String
  target : String
  deriving DecidableEq, Repr

namespace Installed

/-- The entry that a listing has for it. -/
def entry (i : Installed) : String := i.name ++ "-" ++ i.target

/-- The line of the entry. -/
def line (i : Installed) : String := i.entry ++ "\n"

/-- It was built for a target of a known architecture. -/
structure Targeted (i : Installed) : Prop where
  known : isTarget i.target.toList = true
  word : IsWord i.target

theorem toList_entry (i : Installed) : i.entry.toList = i.name.toList ++ '-' :: i.target.toList := by
  simp [entry]

theorem entry_ne_nil (i : Installed) : i.entry.toList ≠ [] := by simp [toList_entry]

theorem isWord_entry {i : Installed} (hi : i.Targeted) (hname : IsWord i.name) : IsWord i.entry := by
  intro c hc
  rw [toList_entry, List.mem_append, List.mem_cons] at hc
  rcases hc with hc | rfl | hc
  · exact hname c hc
  · decide
  · exact hi.word c hc

/-- An entry stands for its name. -/
theorem names_entry {i : Installed} (hi : i.Targeted) : names i.entry i.name = true := by
  simp [names, toList_entry, hi.known]

theorem lines_line {i : Installed} (h : IsWord i.entry) : lines i.line.toList = [i.entry.toList] := by
  have htail : LineTail i.entry.toList :=
    ⟨fun hfeed => absurd (h '\n' hfeed) (by decide), fun c hc => h c (List.mem_of_getLast? hc)⟩
  simpa [line] using Text.lines_line htail

theorem channels_line {i : Installed} (h : IsWord i.entry) : channels i.line = [i.entry] := by
  simp [channels, lines_line h, firstWord?_of_isWord h i.entry_ne_nil]

theorem components_line {i : Installed} (h : IsWord i.entry) : components i.line = [i.entry] := by
  rw [components, lines_line h, List.map_singleton, trim_of_isWord h,
    List.filter_cons_of_pos (by simpa using i.entry_ne_nil)]
  simp

end Installed

/-! ## Listings -/

/-- The text of lines. -/
def ofLines (ls : List String) : String := String.join (ls.map (· ++ "\n"))

theorem lines_ofLines (l : String) (ls : List String) :
    lines (ofLines (l :: ls)).toList = lines (l ++ "\n").toList ++ lines (ofLines ls).toList := by
  have h : (ofLines (l :: ls)).toList = l.toList ++ '\n' :: (ofLines ls).toList := by simp [ofLines]
  rw [h, lines_append_feed]
  simp

/-- A text of lines shows a channel if one of them does. -/
theorem lists_ofLines (channel : String) : ∀ ls : List String,
    lists (ofLines ls) channel = ls.any fun l => lists (l ++ "\n") channel
  | [] => rfl
  | l :: ls => by
    rw [List.any_cons, ← lists_ofLines channel ls]
    simp only [lists, channels, lines_ofLines, List.filterMap_append, List.any_append]

/-- A text of lines shows a component if one of them does. -/
theorem listsComponent_ofLines (component : String) : ∀ ls : List String,
    listsComponent (components (ofLines ls)) component =
      ls.any fun l => listsComponent (components (l ++ "\n")) component
  | [] => rfl
  | l :: ls => by
    rw [List.any_cons, ← listsComponent_ofLines component ls]
    simp only [listsComponent, components, lines_ofLines, List.map_append, List.filter_append,
      List.any_append]

/-- The listing of what is installed, line by line. -/
def listing (items : List Installed) : String := String.join (items.map Installed.line)

theorem listing_eq (items : List Installed) : listing items = ofLines (items.map Installed.entry) := by
  rw [listing, ofLines, List.map_map]
  rfl

theorem lists_listing (channel : String) (items : List Installed) :
    lists (listing items) channel = items.any fun i => lists i.line channel := by
  rw [listing_eq, lists_ofLines, List.any_map]
  rfl

theorem listsComponent_listing (component : String) (items : List Installed) :
    listsComponent (components (listing items)) component =
      items.any fun i => listsComponent (components i.line) component := by
  rw [listing_eq, listsComponent_ofLines, List.any_map]
  rfl

/-- What is installed besides takes nothing from a listing. -/
theorem lists_mono {items items' : List Installed} (h : items ⊆ items') {channel : String}
    (hlists : lists (listing items) channel = true) : lists (listing items') channel = true := by
  rw [lists_listing, List.any_eq_true] at hlists ⊢
  obtain ⟨i, hi, hline⟩ := hlists
  exact ⟨i, h hi, hline⟩

theorem listsComponent_mono {items items' : List Installed} (h : items ⊆ items') {component : String}
    (hlists : listsComponent (components (listing items)) component = true) :
    listsComponent (components (listing items')) component = true := by
  rw [listsComponent_listing, List.any_eq_true] at hlists ⊢
  obtain ⟨i, hi, hline⟩ := hlists
  exact ⟨i, h hi, hline⟩

/-- A channel that is installed is listed. -/
theorem lists_of_mem {items : List Installed} {i : Installed} (hmem : i ∈ items) (hi : i.Targeted)
    (hname : IsWord i.name) : lists (listing items) i.name = true := by
  rw [lists_listing, List.any_eq_true]
  refine ⟨i, hmem, ?_⟩
  rw [lists, Installed.channels_line (Installed.isWord_entry hi hname), List.any_cons,
    Installed.names_entry hi, Bool.true_or]

/-- A component that is installed under its stable name is listed. -/
theorem listsComponent_of_mem {items : List Installed} {i : Installed} {component : String}
    (hmem : i ∈ items) (hi : i.Targeted) (hname : i.name = stableName component)
    (hword : IsWord component) : listsComponent (components (listing items)) component = true := by
  have hstable : IsWord i.name := hname ▸ isWord_stableName hword
  rw [listsComponent_listing, List.any_eq_true]
  refine ⟨i, hmem, ?_⟩
  rw [listsComponent, Installed.components_line (Installed.isWord_entry hi hstable), List.any_cons,
    ← hname, Installed.names_entry hi, Bool.or_true, Bool.true_or]

/-! ## What entries stand for -/

/-- The name of a target: a known architecture at its head, and a hyphen in it. -/
def IsTriple (target : String) : Prop :=
  '-' ∈ target.toList ∧ ∃ a ∈ architectures, a.toList <+: target.toList

/-- An entry stands for a name: it is the name, or the name with a target behind a hyphen. -/
def StandsFor (entry name : String) : Prop :=
  entry = name ∨ ∃ target, IsTriple target ∧ entry = name ++ "-" ++ target

/-- A line of the listing has an entry for the channel as its first word. -/
def ShowsChannel (listing channel : String) : Prop :=
  ∃ line ∈ lines listing.toList, ∃ word, firstWord? line = some word ∧
    StandsFor (String.ofList word) channel

/-- A line of the listing is an entry for the component, by its name or by that name without the
ending it has before it becomes stable. -/
def ShowsComponent (listing component : String) : Prop :=
  ∃ line ∈ lines listing.toList, trim line ≠ [] ∧
    (StandsFor (String.ofList (trim line)) component ∨
      ∃ base, component = base ++ "-preview" ∧ StandsFor (String.ofList (trim line)) base)

theorem isTarget_iff (target : List Char) :
    isTarget target = true ↔ IsTriple (String.ofList target) := by
  have hstarts : ∀ a : String, startsWith a.toList target = true ↔ a.toList <+: target := by
    intro a
    unfold startsWith
    rw [Option.isSome_iff_exists]
    constructor
    · rintro ⟨rest, h⟩
      exact ⟨rest, (eq_of_after? h).symm⟩
    · rintro ⟨rest, rfl⟩
      exact ⟨rest, after?_append _ _⟩
  simp [isTarget, IsTriple, hstarts]

theorem names_iff (entry name : String) : names entry name = true ↔ StandsFor entry name := by
  unfold names StandsFor
  rw [Bool.or_eq_true, beq_iff_eq]
  refine or_congr_right ?_
  constructor
  · intro h
    split at h
    · rename_i rest hrest
      refine ⟨String.ofList rest, (isTarget_iff rest).1 h, String.toList_inj.1 ?_⟩
      simp [eq_of_after? hrest]
    · cases h
  · rintro ⟨target, htriple, rfl⟩
    have hrest : after? name.toList (name ++ "-" ++ target).toList = some ('-' :: target.toList) := by
      rw [show (name ++ "-" ++ target).toList = name.toList ++ '-' :: target.toList by simp]
      exact after?_append _ _
    rw [hrest]
    exact (isTarget_iff target.toList).2 (by rwa [String.ofList_toList])

theorem lists_iff (listing channel : String) :
    lists listing channel = true ↔ ShowsChannel listing channel := by
  simp only [lists, channels, ShowsChannel, List.any_eq_true, List.mem_filterMap, Option.map_eq_some_iff,
    names_iff]
  constructor
  · rintro ⟨_, ⟨line, hline, word, hword, rfl⟩, hentry⟩
    exact ⟨line, hline, word, hword, hentry⟩
  · rintro ⟨line, hline, word, hword, hentry⟩
    exact ⟨_, ⟨line, hline, word, hword, rfl⟩, hentry⟩

theorem listsComponent_iff (listing component : String) :
    listsComponent (components listing) component = true ↔ ShowsComponent listing component := by
  have hstable : ∀ entry, StandsFor entry component ∨ StandsFor entry (stableName component) ↔
      StandsFor entry component ∨ ∃ base, component = base ++ "-preview" ∧ StandsFor entry base := by
    intro entry
    rcases stableName_cases component with hpreview | ⟨hsame, hnot⟩
    · refine or_congr_right ⟨fun h => ⟨_, hpreview, h⟩, ?_⟩
      rintro ⟨base, hbase, h⟩
      rwa [String.append_left_inj _ |>.1 (hpreview.symm.trans hbase)]
    · rw [hsame, or_self]
      exact ⟨.inl, fun h => h.resolve_right fun ⟨base, hbase, _⟩ => hnot base hbase⟩
  simp only [listsComponent, components, ShowsComponent, List.any_eq_true, List.mem_map, List.mem_filter,
    Bool.or_eq_true, names_iff, hstable, decide_eq_true_eq]
  constructor
  · rintro ⟨_, ⟨_, ⟨⟨line, hline, rfl⟩, hne⟩, rfl⟩, hentry⟩
    exact ⟨line, hline, hne, hentry⟩
  · rintro ⟨line, hline, hne, hentry⟩
    exact ⟨_, ⟨_, ⟨⟨line, hline, rfl⟩, hne⟩, rfl⟩, hentry⟩

end CoverageRun.Toolchain
