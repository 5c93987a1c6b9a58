/-
Which names an entry stands for. Names and targets both hold hyphens, so an entry can be cut at
several places; but no architecture holds one, and of two names that share an entry the longer goes on
from the shorter with an architecture. So a line for something with a longer name, such as a channel
with a date, does not count where a listing is searched for the name it begins with.
-/
import CoverageRun.Proofs.Toolchain.Listing

namespace CoverageRun.Toolchain

open Text

/-! ## Architectures -/

/-- A text that begins with the name of an architecture. -/
def OfArchitecture (s : List Char) : Prop := ∃ a ∈ architectures, a.toList <+: s

instance (s : List Char) : Decidable (OfArchitecture s) :=
  inferInstanceAs (Decidable (∃ a ∈ architectures, a.toList <+: s))

instance (target : String) : Decidable (IsTriple target) :=
  inferInstanceAs (Decidable ('-' ∈ target.toList ∧ OfArchitecture target.toList))

theorem hyphen_notMem_architecture : ∀ a ∈ architectures, '-' ∉ a.toList := by decide

theorem IsTriple.ofArchitecture {target : String} (h : IsTriple target) : OfArchitecture target.toList :=
  h.2

theorem OfArchitecture.mono {s t : List Char} (h : OfArchitecture s) (hst : s <+: t) : OfArchitecture t :=
  h.imp fun _ ⟨ha, hs⟩ => ⟨ha, hs.trans hst⟩

/-- What a text begins with stands before its first hyphen. -/
theorem OfArchitecture.before_hyphen {s t : List Char} (h : OfArchitecture (s ++ '-' :: t)) :
    OfArchitecture s :=
  h.imp fun a ⟨ha, hs⟩ => ⟨ha, prefix_of_prefix_append_sep (hyphen_notMem_architecture a ha) hs⟩

/-- No architecture begins as the ending does that a name has before it becomes stable. -/
theorem not_ofArchitecture_preview (s : List Char) : ¬ OfArchitecture ("preview".toList ++ s) := by
  simp [OfArchitecture, architectures]

/-! ## Names that share an entry -/

/-- A name that is another one and goes on behind a hyphen with an architecture. -/
def GoesOn (longer shorter : String) : Prop :=
  ∃ s : String, OfArchitecture s.toList ∧ longer = shorter ++ "-" ++ s

theorem StandsFor.isPrefix {entry name : String} (h : StandsFor entry name) :
    name.toList <+: entry.toList := by
  rcases h with rfl | ⟨target, -, rfl⟩
  · exact List.prefix_refl _
  · rw [String.append_assoc, String.toList_append]
    exact List.prefix_append _ _

theorem standsFor_append_iff {name s : String} : StandsFor (name ++ "-" ++ s) name ↔ IsTriple s := by
  constructor
  · rintro (hname | ⟨target, htarget, hentry⟩)
    · have hchars := congrArg String.toList hname
      simp at hchars
    · rwa [(String.append_right_inj _).1 hentry]
  · exact fun h => .inr ⟨s, h, rfl⟩

/-- Of two names that an entry is cut into, the longer goes on from the shorter. -/
theorem goesOn_of_append {a b t u : String} (ht : OfArchitecture t.toList) {x : List Char}
    (hb : b.toList = a.toList ++ x) (hx : '-' :: t.toList = x ++ '-' :: u.toList) :
    b = a ∨ GoesOn b a := by
  cases x with
  | nil => exact .inl (String.toList_inj.1 (by simpa using hb))
  | cons c s =>
    obtain ⟨rfl, hs⟩ := List.cons.inj hx
    refine .inr ⟨String.ofList s, ?_, String.toList_inj.1 (by simp [hb])⟩
    rw [String.toList_ofList]
    exact OfArchitecture.before_hyphen (hs ▸ ht)

theorem goesOn_of_standsFor {entry a b : String} (hne : b ≠ a) (ha : StandsFor entry a)
    (hb : StandsFor entry b) : GoesOn b a ∨ GoesOn a b := by
  rcases ha with rfl | ⟨t, ht, rfl⟩
  · rcases hb with rfl | ⟨u, hu, rfl⟩
    · exact absurd rfl hne
    · exact .inr ⟨u, hu.ofArchitecture, rfl⟩
  · rcases hb with rfl | ⟨u, hu, hentry⟩
    · exact .inl ⟨t, ht.ofArchitecture, rfl⟩
    -- the entry is cut at two hyphens, and one of the names stands before both
    have hcut := congrArg String.toList hentry
    simp only [String.toList_append, show "-".toList = ['-'] from rfl, List.append_assoc,
      List.singleton_append] at hcut
    rcases List.append_eq_append_iff.1 hcut with ⟨x, hx, hrest⟩ | ⟨x, hx, hrest⟩
    · exact .inl ((goesOn_of_append ht.ofArchitecture hx hrest).resolve_left hne)
    · exact .inr ((goesOn_of_append hu.ofArchitecture hx hrest).resolve_left hne.symm)

/-- A name shares an entry with what it goes on to, whatever target stands behind that. -/
theorem GoesOn.exists_entry {longer shorter : String} (h : GoesOn longer shorter) :
    ∃ entry, StandsFor entry shorter ∧ StandsFor entry longer := by
  obtain ⟨s, hs, rfl⟩ := h
  refine ⟨shorter ++ "-" ++ s ++ "-" ++ "arm-none-eabi", .inr ⟨s ++ "-" ++ "arm-none-eabi",
    ⟨by simp, ?_⟩, ?_⟩, .inr ⟨"arm-none-eabi", by decide, rfl⟩⟩
  · exact hs.mono (by simp [List.append_assoc])
  · simp only [String.append_assoc]

theorem shares_entry_iff {a b : String} (hne : b ≠ a) :
    (∃ entry, names entry a = true ∧ names entry b = true) ↔ GoesOn b a ∨ GoesOn a b := by
  simp only [names_iff]
  constructor
  · rintro ⟨entry, ha, hb⟩
    exact goesOn_of_standsFor hne ha hb
  · rintro (h | h)
    · exact h.exists_entry
    · exact h.exists_entry.imp fun _ => And.symm

/-! ## Longer names -/

/-- A line that begins with a name and goes on behind a hyphen, and not with an architecture: that of
something with a longer name, such as a channel with a date. -/
def IsLonger (line name : String) : Prop :=
  ∃ s : String, ¬ OfArchitecture s.toList ∧ line = name ++ "-" ++ s

/-- A word in the line that begins with the name goes on as the line does. -/
theorem IsLonger.exists_more {line name : String} (h : IsLonger line name) {word : List Char}
    (hword : Between line.toList word) (hname : name.toList <+: word) :
    ∃ more, ¬ OfArchitecture more ∧ word = name.toList ++ '-' :: more ∧ word <+: line.toList := by
  obtain ⟨s, hs, rfl⟩ := h
  have hline : (name ++ "-" ++ s).toList = name.toList ++ '-' :: s.toList := by simp
  rw [hline] at hword ⊢
  obtain ⟨more, hmore, rfl⟩ := hword.exists_more (by decide) hname
  refine ⟨more, fun hstarts => hs (hstarts.mono hmore), rfl, ?_⟩
  rwa [List.prefix_append_right_inj, List.cons_prefix_cons, and_iff_right rfl]

/-- No word in the line stands for the name that the line begins with. -/
theorem IsLonger.not_standsFor {line name : String} (h : IsLonger line name) {word : List Char}
    (hword : Between line.toList word) : ¬ StandsFor (String.ofList word) name := by
  intro hstands
  obtain ⟨more, hmore, rfl, -⟩ := h.exists_more hword (by simpa using hstands.isPrefix)
  have hentry : String.ofList (name.toList ++ '-' :: more) = name ++ "-" ++ String.ofList more :=
    String.toList_inj.1 (by simp)
  rw [hentry, standsFor_append_iff] at hstands
  exact hmore (by simpa using hstands.ofArchitecture)

/-- A line for another component: it is longer than the name, or longer than the name that the
component has when it is stable, without beginning with the name itself. -/
def IsOther (line component : String) : Prop :=
  IsLonger line component ∨
    IsLonger line (stableName component) ∧ ¬ component.toList <+: line.toList

theorem IsLonger.stableName {line component : String} (h : IsLonger line component) :
    IsLonger line (stableName component) := by
  rcases stableName_cases component with hpreview | ⟨hsame, -⟩
  · generalize Toolchain.stableName component = base at hpreview ⊢
    obtain ⟨s, -, rfl⟩ := h
    refine ⟨"preview-" ++ s, ?_, String.toList_inj.1 (by simp [hpreview])⟩
    simpa using not_ofArchitecture_preview ('-' :: s.toList)
  · rwa [hsame]

/-- No word of the line stands for the component, under either name. -/
theorem IsOther.not_standsFor {line component : String} (h : IsOther line component)
    {word : List Char} (hword : Between line.toList word) :
    ¬ StandsFor (String.ofList word) component ∧
      ¬ StandsFor (String.ofList word) (stableName component) := by
  rcases h with hlonger | ⟨hlonger, hnot⟩
  · exact ⟨hlonger.not_standsFor hword, hlonger.stableName.not_standsFor hword⟩
  refine ⟨fun hstands => ?_, hlonger.not_standsFor hword⟩
  have hname : component.toList <+: word := by simpa using hstands.isPrefix
  obtain ⟨-, -, -, hline⟩ := hlonger.exists_more hword ((stableName_isPrefix component).trans hname)
  exact hnot (hname.trans hline)

/-! ## Lines for longer names -/

theorem lists_line_of_isLonger {line channel : String} (h : IsLonger line channel)
    (hfeed : '\n' ∉ line.toList) : lists (line ++ "\n") channel = false := by
  rw [Bool.eq_false_iff, ne_eq, lists_iff]
  rintro ⟨l, hl, word, hword, hstands⟩
  have hline : l = dropReturn line.toList := by simpa [lines_feed hfeed] using hl
  subst hline
  exact h.not_standsFor (between_firstWord hword).of_dropReturn hstands

theorem listsComponent_line_of_isOther {line component : String} (h : IsOther line component)
    (hfeed : '\n' ∉ line.toList) :
    listsComponent (components (line ++ "\n")) component = false := by
  rw [listsComponent, List.any_eq_false]
  intro entry hentry
  obtain ⟨word, hword, rfl⟩ := List.mem_map.1 hentry
  have hline : word = trim line.toList := by
    simpa [lines_feed hfeed] using List.mem_of_mem_filter hword
  subst hline
  obtain ⟨hname, hstable⟩ := h.not_standsFor (between_trim line.toList)
  simp [names_iff, hname, hstable]

/-- An entry stands for one name: another name for it goes on from the one, or the one from it, with
an architecture. So what is installed under a longer name that goes on otherwise is never taken for
what is asked for: the entry does not stand for it, and a listing shows the same with its line as
without. -/
theorem names_unambiguous (name : String) :
    (∀ other, other ≠ name → ((∃ entry, names entry name = true ∧ names entry other = true) ↔
      GoesOn other name ∨ GoesOn name other)) ∧
    (∀ s : String, ¬ OfArchitecture s.toList → names (name ++ "-" ++ s) name = false) ∧
    (∀ before after line, IsLonger line name → '\n' ∉ line.toList →
      lists (ofLines (before ++ line :: after)) name = lists (ofLines (before ++ after)) name) ∧
    ∀ before after line, IsOther line name → '\n' ∉ line.toList →
      listsComponent (components (ofLines (before ++ line :: after))) name =
        listsComponent (components (ofLines (before ++ after))) name := by
  refine ⟨fun other hne => shares_entry_iff hne, ?_, ?_, ?_⟩
  · intro s hs
    rw [Bool.eq_false_iff, ne_eq, names_iff, standsFor_append_iff]
    exact fun h => hs h.ofArchitecture
  · intro before after line hline hfeed
    simp [lists_ofLines, lists_line_of_isLonger hline hfeed]
  · intro before after line hline hfeed
    simp [listsComponent_ofLines, listsComponent_line_of_isOther hline hfeed]

theorem names_unambiguous_nightly :
    (names "nightly-armv7-x86_64-unknown-linux-gnu" "nightly" = true ∧
      names "nightly-armv7-x86_64-unknown-linux-gnu" "nightly-armv7" = true ∧
      (GoesOn "nightly-armv7" "nightly" ∨ GoesOn "nightly" "nightly-armv7")) ∧
    names "nightly-2024-05-01-x86_64-unknown-linux-gnu" "nightly" = false ∧
    names "rust-src" "rust" = false ∧
    lists (ofLines ["stable-x86_64-unknown-linux-gnu",
      "nightly-2024-05-01-x86_64-unknown-linux-gnu (default)"]) "nightly" = false ∧
    listsComponent (components (ofLines ["llvm-tools-preview-x86_64-unknown-linux-gnu",
      "cargo-x86_64-unknown-linux-gnu"])) "llvm-tools" = false := by
  obtain ⟨hshared, hnames, hlists, -⟩ := names_unambiguous "nightly"
  obtain ⟨-, -, -, hcomponents⟩ := names_unambiguous "llvm-tools"
  have hnightly : names "nightly-armv7-x86_64-unknown-linux-gnu" "nightly" = true := by decide
  have harmv7 : names "nightly-armv7-x86_64-unknown-linux-gnu" "nightly-armv7" = true := by decide
  have hdated : IsLonger "nightly-2024-05-01-x86_64-unknown-linux-gnu (default)" "nightly" :=
    ⟨"2024-05-01-x86_64-unknown-linux-gnu (default)", by decide, rfl⟩
  have hpreview : IsLonger "llvm-tools-preview-x86_64-unknown-linux-gnu" "llvm-tools" :=
    ⟨"preview-x86_64-unknown-linux-gnu", by decide, rfl⟩
  refine ⟨⟨hnightly, harmv7, (hshared "nightly-armv7" (by decide)).1 ⟨_, hnightly, harmv7⟩⟩, ?_, ?_, ?_, ?_⟩
  · exact hnames "2024-05-01-x86_64-unknown-linux-gnu" (by decide)
  · exact (names_unambiguous "rust").2.1 "src" (by decide)
  · exact (hlists ["stable-x86_64-unknown-linux-gnu"] [] _ hdated (by decide)).trans (by decide)
  · exact (hcomponents [] ["cargo-x86_64-unknown-linux-gnu"] _ (.inl hpreview) (by decide)).trans
      (by decide)

end CoverageRun.Toolchain
