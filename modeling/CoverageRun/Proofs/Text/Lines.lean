/-
Cutting undoes putting together: a separator that a piece does not hold is found behind the piece,
terminated lines are cut into the same lines, and trimming leaves a line alone that neither begins
nor ends with a blank. In the other direction, a line holds no line feed and a trimmed text ends in
no blank; both are kept by whatever stands at the end of it. What blanks set off in a line, as its
first word or the whole of it, goes on as the line does.
-/
import CoverageRun.Text.Split
import Mathlib.Data.List.Basic
import Mathlib.Data.List.TakeWhile

namespace CoverageRun.Text

/-! ## Separators -/

theorem split_of_not_mem {sep : Char} : ∀ {l : List Char}, sep ∉ l → split sep l = [l]
  | [], _ => rfl
  | c :: r, h => by
    have hc : c ≠ sep := fun e => h (e ▸ List.mem_cons_self)
    simp [split, hc, split_of_not_mem fun m => h (List.mem_cons_of_mem c m)]

theorem split_ne_nil (sep : Char) : ∀ l : List Char, split sep l ≠ []
  | [] => by simp [split]
  | c :: r => by
    simp only [split]
    split
    · simp
    · split <;> simp

/-- The pieces hold no separator. -/
theorem not_mem_of_mem_split {sep : Char} : ∀ {l p : List Char}, p ∈ split sep l → sep ∉ p
  | [], p, h => by simp [split] at h; simp [h]
  | c :: r, p, h => by
    simp only [split] at h
    split at h
    · rcases List.mem_cons.1 h with rfl | h
      · simp
      · exact not_mem_of_mem_split h
    · rename_i hc
      split at h
      · rename_i hn; exact absurd hn (split_ne_nil sep r)
      · rename_i q qs hq
        have hr : ∀ p ∈ q :: qs, sep ∉ p := fun p hp => not_mem_of_mem_split (hq ▸ hp)
        rcases List.mem_cons.1 h with rfl | h
        · simpa [Ne.symm hc] using hr q List.mem_cons_self
        · exact hr p (List.mem_cons_of_mem _ h)

/-- A separator cuts between whatever stands before and behind it. -/
theorem split_append_sep (sep : Char) (b : List Char) :
    ∀ a : List Char, split sep (a ++ sep :: b) = split sep a ++ split sep b
  | [] => by simp [split]
  | c :: r => by
    simp only [List.cons_append, split, split_append_sep sep b r]
    split
    · rfl
    · cases hr : split sep r with
      | nil => exact absurd hr (split_ne_nil sep r)
      | cons p ps => rfl

theorem split_append {sep : Char} (rest : List Char) {l : List Char} (h : sep ∉ l) :
    split sep (l ++ sep :: rest) = l :: split sep rest := by
  rw [split_append_sep, split_of_not_mem h, List.singleton_append]

/-- A separator at the end leaves an empty piece behind it. -/
theorem split_snoc (sep : Char) (l : List Char) : split sep (l ++ [sep]) = split sep l ++ [[]] :=
  split_append_sep sep [] l

theorem split_join {sep : Char} : ∀ {ps : List (List Char)}, ps ≠ [] → (∀ p ∈ ps, sep ∉ p) →
    split sep (join [sep] ps) = ps
  | [], hne, _ => absurd rfl hne
  | [p], _, h => split_of_not_mem (h p List.mem_cons_self)
  | p :: q :: ps, _, h => by
    have hrest : ∀ p ∈ q :: ps, sep ∉ p := fun p hp => h p (List.mem_cons_of_mem _ hp)
    rw [join, List.append_assoc, List.singleton_append, split_append (join [sep] (q :: ps))
      (h p List.mem_cons_self), split_join (List.cons_ne_nil q ps) hrest]

/-- The pieces put together again are the text. -/
theorem join_split (sep : Char) : ∀ l : List Char, join [sep] (split sep l) = l
  | [] => rfl
  | c :: r => by
    have ih := join_split sep r
    simp only [split]
    cases hr : split sep r with
    | nil => exact absurd hr (split_ne_nil sep r)
    | cons p ps =>
      rw [hr] at ih
      split
      · rename_i hc
        rw [join, ih, hc]
        rfl
      · cases ps with
        | nil => rw [← ih]; rfl
        | cons q qs => rw [← ih]; rfl

theorem join_append (sep : List Char) : ∀ {ps qs : List (List Char)}, ps ≠ [] → qs ≠ [] →
    join sep (ps ++ qs) = join sep ps ++ sep ++ join sep qs
  | [], _, h, _ => absurd rfl h
  | [p], q :: qs, _, _ => rfl
  | [_], [], _, h => absurd rfl h
  | p :: p' :: ps, qs, _, h => by
    rw [List.cons_append, List.cons_append, join, ← List.cons_append,
      join_append sep (List.cons_ne_nil p' ps) h, join]
    simp only [List.append_assoc]

theorem joinText_eq_intercalate (sep : String) : ∀ parts : List String,
    joinText sep parts = sep.intercalate parts
  | [] => rfl
  | [p] => by simp [joinText, join]
  | p :: q :: ps => by
    have ih := congrArg String.toList (joinText_eq_intercalate sep (q :: ps))
    apply String.toList_inj.1
    simp only [joinText, String.toList_ofList, String.toList_intercalate, List.map_cons] at ih ⊢
    rw [join, ih, List.intercalate_cons_cons]

/-- What is put together holds the separator and what the pieces hold. -/
theorem mem_join {sep c : Char} : ∀ {ps : List (List Char)}, c ∈ join [sep] ps →
    c = sep ∨ ∃ p ∈ ps, c ∈ p
  | [], h => by cases h
  | [p], h => .inr ⟨p, List.mem_cons_self, h⟩
  | p :: q :: ps, h => by
    rw [join, List.append_assoc, List.mem_append, List.singleton_append, List.mem_cons] at h
    rcases h with h | h | h
    · exact .inr ⟨p, List.mem_cons_self, h⟩
    · exact .inl h
    · exact (mem_join h).imp_right fun ⟨r, hr, hc⟩ => ⟨r, List.mem_cons_of_mem p hr, hc⟩

theorem head?_split_of_head? {sep : Char} {l : List Char} (h : l.head? = some sep) :
    (split sep l).head? = some [] := by
  obtain ⟨r, rfl⟩ := List.head?_eq_some_iff.1 h
  simp [split]

/-- Text without a separator goes to the last piece. -/
theorem split_append_last {sep : Char} {b : List Char} (hb : sep ∉ b) : ∀ a : List Char,
    ∃ init last, split sep a = init ++ [last] ∧ split sep (a ++ b) = init ++ [last ++ b]
  | [] => ⟨[], [], rfl, by simp [split_of_not_mem hb]⟩
  | c :: r => by
    obtain ⟨init, last, hr, hrb⟩ := split_append_last hb r
    simp only [List.cons_append, split, hr, hrb]
    split
    · exact ⟨[] :: init, last, rfl, rfl⟩
    · cases init with
      | nil => exact ⟨[], c :: last, rfl, rfl⟩
      | cons p ps => exact ⟨(c :: p) :: ps, last, rfl, rfl⟩

theorem cut_append {sep : Char} (rest : List Char) :
    ∀ {l : List Char}, sep ∉ l → cut sep (l ++ sep :: rest) = some (l, rest)
  | [], _ => by simp [cut]
  | c :: r, h => by
    have hc : c ≠ sep := fun e => h (e ▸ List.mem_cons_self)
    simp [cut, hc, cut_append rest fun m => h (List.mem_cons_of_mem c m)]

theorem eq_of_cut {sep : Char} :
    ∀ {l a b : List Char}, cut sep l = some (a, b) → l = a ++ sep :: b
  | [], _, _, h => by simp [cut] at h
  | c :: r, a, b, h => by
    simp only [cut] at h
    split at h
    · rename_i hc; cases h; simp [hc]
    · obtain ⟨⟨a', b'⟩, hr, he⟩ := Option.map_eq_some_iff.1 h
      cases he
      rw [eq_of_cut hr, List.cons_append]

theorem not_mem_of_cut {sep : Char} :
    ∀ {l a b : List Char}, cut sep l = some (a, b) → sep ∉ a
  | [], _, _, h => by simp [cut] at h
  | c :: r, a, b, h => by
    simp only [cut] at h
    split at h
    · cases h; simp
    · rename_i hc
      obtain ⟨⟨a', b'⟩, hr, he⟩ := Option.map_eq_some_iff.1 h
      cases he
      simpa [Ne.symm hc] using not_mem_of_cut hr

theorem append_sep_inj {sep : Char} {a b x y : List Char} (ha : sep ∉ a) (hb : sep ∉ b) :
    a ++ sep :: x = b ++ sep :: y ↔ a = b ∧ x = y := by
  constructor
  · intro h
    have hcut := congrArg (cut sep) h
    rw [cut_append x ha, cut_append y hb] at hcut
    simpa using hcut
  · rintro ⟨rfl, rfl⟩
    rfl

theorem cut_eq_none_of_not_mem {sep : Char} {l : List Char} (h : sep ∉ l) : cut sep l = none := by
  cases hcut : cut sep l with
  | none => rfl
  | some p => exact absurd (eq_of_cut hcut ▸ by simp) h

/-! ## Beginnings -/

@[simp]
theorem after?_append : ∀ lead rest : List Char, after? lead (lead ++ rest) = some rest
  | [], rest => by simp [after?]
  | c :: lead, rest => by simp [after?, after?_append lead rest]

theorem eq_of_after? : ∀ {lead l rest : List Char}, after? lead l = some rest → l = lead ++ rest
  | [], l, rest, h => by simpa [after?] using h
  | _ :: _, [], _, h => by simp [after?] at h
  | c :: lead, d :: l, rest, h => by
    simp only [after?] at h
    split at h
    · rename_i hcd; rw [hcd, eq_of_after? h, List.cons_append]
    · cases h

/-- What holds no separator and begins a text that has one begins what stands before it. -/
theorem prefix_of_prefix_append_sep {sep : Char} {lead a b : List Char} (h : sep ∉ lead)
    (hlead : lead <+: a ++ sep :: b) : lead <+: a := by
  rcases List.prefix_or_prefix_of_prefix hlead (List.prefix_append a (sep :: b)) with ha | ⟨x, rfl⟩
  · exact ha
  cases x with
  | nil => simp
  | cons c x =>
    rw [List.prefix_append_right_inj, List.cons_prefix_cons] at hlead
    exact absurd (List.mem_append_right a (hlead.1 ▸ List.mem_cons_self)) h

theorem eq_append_of_endsWith {tail l : List Char} (h : endsWith tail l = true) :
    ∃ front, l = front ++ tail := by
  unfold endsWith before? at h
  obtain ⟨front, hfront⟩ := Option.isSome_iff_exists.1 h
  obtain ⟨rest, hrest, -⟩ := Option.map_eq_some_iff.1 hfront
  refine ⟨rest.reverse, ?_⟩
  rw [← List.reverse_reverse l, eq_of_after? hrest]; simp

/-- A text that ends with a separator has an empty last piece. -/
theorem getLast?_split_of_endsWith {sep : Char} {l : List Char} (h : endsWith [sep] l = true) :
    (split sep l).getLast? = some [] := by
  obtain ⟨front, rfl⟩ := eq_append_of_endsWith h
  rw [split_snoc, List.getLast?_concat]

/-! ## Lines -/

/-- A text that can stand at the end of a line: cutting into lines and trimming take nothing of
it. -/
structure LineTail (l : List Char) : Prop where
  noFeed : '\n' ∉ l
  noBlank : ∀ c, l.getLast? = some c → isBlank c = false

instance (l : List Char) : Decidable (LineTail l) :=
  decidable_of_iff ('\n' ∉ l ∧ (l.getLast?.all fun c => !isBlank c) = true)
    ⟨fun h => ⟨h.1, by simpa [Option.all_eq_true] using h.2⟩,
      fun h => ⟨h.noFeed, by simpa [Option.all_eq_true] using h.noBlank⟩⟩

theorem LineTail.nil : LineTail [] := ⟨by simp, by simp⟩

/-- What stands before the end of a line may end in anything. -/
theorem LineTail.append {a b : List Char} (hb : LineTail b) (hne : b ≠ []) (ha : '\n' ∉ a) :
    LineTail (a ++ b) := by
  refine ⟨by simp [ha, hb.noFeed], fun c hc => hb.noBlank c ?_⟩
  rwa [List.getLast?_append_of_ne_nil _ hne] at hc

/-- The end of a text that can end a line can end a line. -/
theorem LineTail.of_append {a b : List Char} (h : LineTail (a ++ b)) : LineTail b := by
  refine ⟨fun m => h.noFeed (List.mem_append_right a m), fun c hc => h.noBlank c ?_⟩
  rw [List.getLast?_append, hc, Option.some_or]

theorem dropReturn_eq {l : List Char} (h : LineTail l) : dropReturn l = l := by
  unfold dropReturn
  split
  · rename_i hr; exact absurd (h.noBlank '\r' hr) (by decide)
  · rfl

theorem split_terminated : ∀ {ls : List (List Char)}, (∀ l ∈ ls, '\n' ∉ l) →
    split '\n' (ls.flatMap (· ++ ['\n'])) = ls ++ [[]]
  | [], _ => rfl
  | l :: ls, h => by
    have hl : '\n' ∉ l := h l List.mem_cons_self
    have hls : ∀ l ∈ ls, '\n' ∉ l := fun l' m => h l' (List.mem_cons_of_mem _ m)
    simp only [List.flatMap_cons, List.append_assoc, List.cons_append, List.nil_append]
    rw [split_append _ hl, split_terminated hls]

/-- Lines, each with a line feed behind it, are cut into the same lines. -/
theorem lines_terminated {ls : List (List Char)} (h : ∀ l ∈ ls, LineTail l) :
    lines (ls.flatMap (· ++ ['\n'])) = ls := by
  have hmap : ls.map dropReturn = ls := by
    conv_rhs => rw [← List.map_id ls]
    exact List.map_congr_left fun l hl => dropReturn_eq (h l hl)
  simp [lines, split_terminated fun l hl => (h l hl).noFeed, hmap]

/-- A line feed parts the lines before it from those behind it. -/
theorem lines_append_feed (a b : List Char) :
    lines (a ++ '\n' :: b) = lines (a ++ ['\n']) ++ lines b := by
  have hb : split '\n' b ≠ [] := split_ne_nil '\n' b
  have hlast : (split '\n' a ++ split '\n' b).getLast? = (split '\n' b).getLast? :=
    List.getLast?_append_of_ne_nil _ hb
  simp only [lines, split_append_sep, hlast, List.dropLast_append_of_ne_nil hb, List.map_append,
    List.append_assoc]
  simp [split]

/-- A line with its line feed, which takes a carriage return along. -/
theorem lines_feed {l : List Char} (h : '\n' ∉ l) : lines (l ++ ['\n']) = [dropReturn l] := by
  simp [lines, split_append [] h, split]

theorem lines_line {l : List Char} (h : LineTail l) : lines (l ++ ['\n']) = [l] := by
  rw [lines_feed h.noFeed, dropReturn_eq h]

theorem not_mem_of_mem_lines {cs l : List Char} (h : l ∈ lines cs) : '\n' ∉ l := by
  simp only [lines, List.mem_append, List.mem_map] at h
  rcases h with ⟨p, hp, rfl⟩ | h
  · have hp' : '\n' ∉ p := not_mem_of_mem_split (List.dropLast_subset _ hp)
    unfold dropReturn
    split
    · exact fun m => hp' (List.dropLast_subset _ m)
    · exact hp'
  · split at h
    · cases h
    · rw [List.mem_singleton] at h
      subst h
      cases hl : (split '\n' cs).getLast? with
      | none => simp
      | some p => exact not_mem_of_mem_split (List.mem_of_getLast? hl)

/-! ## Trimming -/

theorem trim_eq_self {l : List Char} (hfirst : ∀ c, l.head? = some c → isBlank c = false)
    (hlast : ∀ c, l.getLast? = some c → isBlank c = false) : trim l = l := by
  have hdrop : ∀ l : List Char, (∀ c, l.head? = some c → isBlank c = false) →
      l.dropWhile isBlank = l := by
    intro l h
    cases l with
    | nil => rfl
    | cons c r => simp [h c rfl]
  unfold trim trimEnd trimStart
  rw [hdrop l hfirst, hdrop l.reverse (by simpa using hlast), List.reverse_reverse]

/-- A text without the blanks before it is what trimming leaves, and the blanks behind that. -/
theorem trim_append_blanks (l : List Char) :
    trim l ++ ((trimStart l).reverse.takeWhile isBlank).reverse = trimStart l := by
  rw [trim, trimEnd, ← List.reverse_append, List.takeWhile_append_dropWhile, List.reverse_reverse]

theorem trim_isPrefix (l : List Char) : trim l <+: trimStart l := ⟨_, trim_append_blanks l⟩

/-- A trimmed text begins with no blank. -/
theorem not_isBlank_head_trim {l : List Char} {c : Char} (h : (trim l).head? = some c) :
    isBlank c = false := by
  obtain ⟨r, hr⟩ := trim_isPrefix l
  have hstart : (trimStart l).head? = some c := by rw [← hr, List.head?_append, h, Option.some_or]
  have := List.head?_dropWhile_not isBlank l
  rw [show l.dropWhile isBlank = trimStart l from rfl, hstart] at this
  simpa using this

/-- A trimmed text ends with no blank. -/
theorem not_isBlank_getLast_trim {l : List Char} {c : Char} (h : (trim l).getLast? = some c) :
    isBlank c = false := by
  unfold trim trimEnd at h
  rw [List.getLast?_reverse] at h
  have := List.head?_dropWhile_not isBlank (trimStart l).reverse
  rw [h] at this
  simpa using this

/-- A trimmed line can end a line. -/
theorem lineTail_trim {l : List Char} (h : '\n' ∉ l) : LineTail (trim l) := by
  have hsub : (trim l).Sublist l := (trim_isPrefix l).sublist.trans (List.dropWhile_sublist isBlank)
  exact ⟨fun m => h (hsub.subset m), fun _ => not_isBlank_getLast_trim⟩

@[simp]
theorem trim_trim (l : List Char) : trim (trim l) = trim l :=
  trim_eq_self (fun _ => not_isBlank_head_trim) fun _ => not_isBlank_getLast_trim

theorem trim_append_left {a : List Char} (ha : ∀ c ∈ a, isBlank c = true) (l : List Char) :
    trim (a ++ l) = trim l := by
  unfold trim trimStart
  rw [List.dropWhile_append_of_pos ha]

theorem trim_append_right {b : List Char} (hb : ∀ c ∈ b, isBlank c = true) : ∀ l : List Char,
    trim (l ++ b) = trim l
  | [] => by rw [List.nil_append, ← List.append_nil b, trim_append_left hb]
  | c :: r => by
    by_cases hc : isBlank c = true
    · have hone : ∀ d ∈ [c], isBlank d = true := by simpa using hc
      rw [List.cons_append, ← List.singleton_append, trim_append_left hone, trim_append_right hb r,
        ← trim_append_left hone r, List.singleton_append]
    · have hrev : ∀ d ∈ b.reverse, isBlank d = true := by simpa using hb
      simp only [trim, trimStart, trimEnd, List.cons_append, List.dropWhile_cons, hc, if_false,
        Bool.false_eq_true]
      rw [← List.cons_append, List.reverse_append, List.dropWhile_append_of_pos hrev]

/-- The carriage return a line loses is a blank. -/
@[simp]
theorem trim_dropReturn (l : List Char) : trim (dropReturn l) = trim l := by
  unfold dropReturn
  split
  · rename_i h
    have hl : l.dropLast ++ ['\r'] = l := List.dropLast_append_getLast? _ h
    conv_rhs => rw [← hl, trim_append_right (by simp; decide)]
  · rfl

/-! ## Between blanks -/

/-- What blanks set off in a line: there are only blanks before it, and one or nothing behind it. -/
def Between (line word : List Char) : Prop :=
  ∃ before after, line = before ++ (word ++ after) ∧ (∀ c ∈ before, isBlank c = true) ∧
    (∀ c, word.head? = some c → isBlank c = false) ∧ ∀ c, after.head? = some c → isBlank c = true

theorem between_trim (line : List Char) : Between line (trim line) := by
  refine ⟨line.takeWhile isBlank, ((trimStart line).reverse.takeWhile isBlank).reverse, ?_, ?_, ?_, ?_⟩
  · rw [trim_append_blanks, trimStart, List.takeWhile_append_dropWhile]
  · exact fun c hc => List.mem_takeWhile_imp hc
  · exact fun c hc => not_isBlank_head_trim hc
  · intro c hc
    have hmem := List.mem_reverse.1 (List.mem_of_head? hc)
    exact List.mem_takeWhile_imp hmem

theorem between_firstWord {line word : List Char} (h : firstWord? line = some word) :
    Between line word := by
  have hword : word = (trimStart line).takeWhile fun c => !isBlank c := by
    unfold firstWord? at h
    split at h
    · cases h
    · exact (Option.some.inj h).symm
  refine ⟨line.takeWhile isBlank, (trimStart line).dropWhile fun c => !isBlank c, ?_, ?_, ?_, ?_⟩
  · rw [hword, List.takeWhile_append_dropWhile, trimStart, List.takeWhile_append_dropWhile]
  · exact fun c hc => List.mem_takeWhile_imp hc
  · intro c hc
    rw [hword] at hc
    simpa using List.mem_takeWhile_imp (List.mem_of_head? hc)
  · intro c hc
    have hnot := List.head?_dropWhile_not (fun c => !isBlank c) (trimStart line)
    rw [hc] at hnot
    simpa using hnot

/-- The carriage return a line loses counts as a blank behind it. -/
theorem Between.of_dropReturn {line word : List Char} (h : Between (dropReturn line) word) :
    Between line word := by
  unfold dropReturn at h
  split at h
  · rename_i hlast
    obtain ⟨before, after, hline, hbefore, hword, hafter⟩ := h
    refine ⟨before, after ++ ['\r'], ?_, hbefore, hword, ?_⟩
    · rw [← List.dropLast_append_getLast? _ hlast, hline]
      simp
    · intro c hc
      cases after with
      | nil => cases hc; decide
      | cons d after => exact hafter c hc
  · exact h

/-- A word that begins as its line does goes on as the line does. -/
theorem Between.exists_more {c : Char} {lead rest word : List Char} (h : Between (lead ++ c :: rest) word)
    (hc : isBlank c = false) (hlead : lead <+: word) : ∃ more, more <+: rest ∧ word = lead ++ c :: more := by
  obtain ⟨before, after, hline, hbefore, hword, hafter⟩ := h
  obtain ⟨more, rfl⟩ := hlead
  have hnone : before = [] := by
    cases before with
    | nil => rfl
    | cons b before =>
      have hb : isBlank b = true := hbefore b List.mem_cons_self
      -- the line would begin with a blank, and what is looked for does not
      have hnot : isBlank b = false := by
        cases lead with
        | nil => exact (List.cons.inj hline).1 ▸ hc
        | cons d lead => exact (List.cons.inj hline).1 ▸ hword d rfl
      rw [hb] at hnot
      cases hnot
  rw [hnone, List.nil_append, List.append_assoc, List.append_cancel_left_eq] at hline
  cases more with
  | nil =>
    rw [List.nil_append] at hline
    have hblank := hafter c (by rw [← hline]; rfl)
    rw [hc] at hblank
    cases hblank
  | cons d more =>
    cases hline
    exact ⟨more, List.prefix_append more after, rfl⟩

end CoverageRun.Text
