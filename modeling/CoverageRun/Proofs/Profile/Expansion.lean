/-
What the patterns of profiles expand to. Where the program that writes a profile comes to a mark it
writes a number in decimal digits, behind that of the module a suffix of its own, and it leaves all
else as it is. The number of the process and that of the module can be told apart in the name if
there is a run of digits and marks in the pattern that has one of the marks and not the other. A
pattern that has a mark once has no other way to keep them apart: two writers get one name then.

One that has both more than once may tell them apart by the lengths of its runs, where two of these
hold the marks in different shares. If no digit stands beside a mark there is no other way either;
if one does it may, as in a pattern with a run of both marks and one with a zero between them, and
for these patterns nothing is stated.
-/
import CoverageRun.Profile.Pattern
import CoverageRun.Proofs.Numeral.Whole
import Mathlib.Data.List.Induction
import Mathlib.Tactic.LinearCombination
import Mathlib.Tactic.Ring

namespace CoverageRun.Profile

open Numeral

/-! ## Templates -/

/-- What a mark in a pattern stands for. -/
inductive Mark where
  | process
  | module
  deriving DecidableEq, Repr

namespace Mark

/-- The letter of a mark. -/
def letter : Mark → Char
  | process => 'p'
  | module => 'm'

/-- The other mark. -/
def other : Mark → Mark
  | process => module
  | module => process

theorem other_ne (k : Mark) : k.other ≠ k := by cases k <;> decide

theorem eq_other_of_ne {k l : Mark} (h : l ≠ k) : l = k.other := by
  cases k <;> cases l <;> first | rfl | exact absurd rfl h

end Mark

/-- A piece of a pattern: a character that stays, or a mark. -/
inductive Piece where
  | literal (c : Char)
  | mark (m : Mark)
  deriving DecidableEq, Repr

/-- The pieces of a pattern. A suffix stands behind each mark of the module. -/
def template (suffix : List Char) : List Char → List Piece
  | '%' :: 'p' :: rest => .mark .process :: template suffix rest
  | '%' :: 'm' :: rest => .mark .module :: (suffix.map .literal ++ template suffix rest)
  | c :: rest => .literal c :: template suffix rest
  | [] => []

/-- The characters of a piece, given those of each mark. -/
def Piece.chars (v : Mark → List Char) : Piece → List Char
  | literal c => [c]
  | mark m => v m

/-- The pieces with the marks filled in. -/
def fill (v : Mark → List Char) (t : List Piece) : List Char := t.flatMap (Piece.chars v)

@[simp]
theorem fill_nil (v : Mark → List Char) : fill v [] = [] := rfl

@[simp]
theorem fill_append (v : Mark → List Char) (t t' : List Piece) :
    fill v (t ++ t') = fill v t ++ fill v t' := List.flatMap_append

@[simp]
theorem fill_cons (v : Mark → List Char) (x : Piece) (t : List Piece) :
    fill v (x :: t) = x.chars v ++ fill v t := List.flatMap_cons

/-- What writes a profile: a process, for a module with a signature. -/
@[ext]
structure Writer where
  process : ℕ
  signature : ℕ
  deriving DecidableEq, Repr

/-- What a writer puts in place of the marks. -/
def Writer.shown (w : Writer) : Mark → List Char
  | .process => write w.process
  | .module => write w.signature

/-- The name of the profile of a writer. -/
def expand (suffix pattern : String) (w : Writer) : String :=
  String.ofList (fill w.shown (template suffix.toList pattern.toList))

theorem contains_cons {x y c : Char} {cs : List Char} : Text.contains [x, y] (c :: cs) = true ↔
    (c = x ∧ ∃ rest, cs = y :: rest) ∨ Text.contains [x, y] cs = true := by
  have hstarts : Text.startsWith [x, y] (c :: cs) = true ↔ c = x ∧ ∃ rest, cs = y :: rest := by
    cases cs with
    | nil => simp [Text.startsWith, Text.after?]
    | cons d rest =>
      simp only [Text.startsWith, Text.after?]
      by_cases hc : x = c <;> by_cases hd : y = d <;> simp [hc, hd, Ne.symm]
  rw [Text.contains, Bool.or_eq_true, hstarts]

/-- A mark that a pattern contains is one of its pieces. -/
theorem mark_mem_template (suffix : List Char) {m : Mark} {cs : List Char}
    (h : Text.contains ['%', m.letter] cs = true) : .mark m ∈ template suffix cs := by
  induction cs using template.induct with
  | case1 rest ih =>
    cases m with
    | process => simp [template]
    | module =>
      have hrest : Text.contains ['%', Mark.module.letter] rest = true := by
        simpa [contains_cons, Mark.letter] using h
      simp [template, ih hrest]
  | case2 rest ih =>
    cases m with
    | module => simp [template]
    | process =>
      have hrest : Text.contains ['%', Mark.process.letter] rest = true := by
        simpa [contains_cons, Mark.letter] using h
      simp [template, ih hrest]
  | case3 c rest hprocess hmodule ih =>
    rw [template.eq_3 suffix c rest hprocess hmodule]
    rcases contains_cons.1 h with ⟨rfl, after, rfl⟩ | hrest
    · cases m with
      | process => exact absurd rfl (hprocess after rfl)
      | module => exact absurd rfl (hmodule after rfl)
    · exact List.mem_cons_of_mem _ (ih hrest)
  | case4 => simp [Text.contains] at h

theorem validatePattern_eq_ok_iff {pattern : String} : validatePattern pattern = .ok () ↔
    Text.contains processMark.toList pattern.toList = true ∧
    Text.contains moduleMark.toList pattern.toList = true ∧
    Text.endsWith ('.' :: extension.toList) pattern.toList = true := by
  simp only [validatePattern]
  split_ifs <;> simp_all

/-- A pattern that passes the check has both marks. -/
theorem mark_mem_of_valid {pattern : String} (hvalid : validatePattern pattern = .ok ())
    (suffix : List Char) (m : Mark) : .mark m ∈ template suffix pattern.toList := by
  obtain ⟨hprocess, hmodule, -⟩ := validatePattern_eq_ok_iff.1 hvalid
  cases m with
  | process => exact mark_mem_template suffix hprocess
  | module => exact mark_mem_template suffix hmodule

/-! ## Runs of digits and marks -/

/-- Whether a piece is a character that no number holds. -/
def Piece.separates : Piece → Bool
  | literal c => !isDigit c
  | mark _ => false

/-- The runs of digits and marks between the characters that no number holds. -/
def runs (t : List Piece) : List (List Piece) := t.splitOnP Piece.separates

/-- Some run has one of the marks and not the other. -/
def KeptApart (t : List Piece) : Prop :=
  ∃ r ∈ runs t, Piece.mark .process ∈ r ↔ Piece.mark .module ∉ r

instance (t : List Piece) : Decidable (KeptApart t) :=
  inferInstanceAs (Decidable (∃ r ∈ runs t, Piece.mark .process ∈ r ↔ Piece.mark .module ∉ r))

theorem runs_of_forall {r : List Piece} (hr : ∀ x ∈ r, x.separates = false) : runs r = [r] :=
  List.splitOnP_eq_singleton hr

theorem runs_append_literal {r : List Piece} (hr : ∀ x ∈ r, x.separates = false) {c : Char}
    (hc : isDigit c = false) (t : List Piece) : runs (r ++ .literal c :: t) = r :: runs t := by
  unfold runs
  rw [List.splitOnP_append_cons r t (by simp [Piece.separates, hc]), List.splitOnP_eq_singleton hr,
    List.singleton_append]

/-- A template is a run, or a run before a character that separates and a template. -/
theorem runs_induction {P : List Piece → Prop}
    (single : ∀ r, (∀ x ∈ r, x.separates = false) → P r)
    (before : ∀ r c t, (∀ x ∈ r, x.separates = false) → isDigit c = false → P t →
      P (r ++ .literal c :: t)) (t : List Piece) : P t := by
  -- the run that the template begins with is set up piece by piece
  suffices h : ∀ r, (∀ x ∈ r, x.separates = false) → P (r ++ t) from h [] (by simp)
  induction t with
  | nil => exact fun r hr => (List.append_nil r).symm ▸ single r hr
  | cons x t ih =>
    intro r hr
    cases hx : x.separates with
    | false =>
      have hrun : ∀ y ∈ r ++ [x], y.separates = false := by
        intro y hy
        rcases List.mem_append.1 hy with hy | hy
        · exact hr y hy
        · rw [List.mem_singleton.1 hy, hx]
      simpa using ih (r ++ [x]) hrun
    | true =>
      cases x with
      | literal c => exact before r c t hr (by simpa [Piece.separates] using hx) (ih [] (by simp))
      | mark m => cases hx

theorem flatten_runs (t : List Piece) : (runs t).flatten = t.filter fun x => !x.separates := by
  induction t using runs_induction with
  | single r hr =>
    rw [runs_of_forall hr, List.flatten_singleton,
      List.filter_eq_self.2 fun x hx => by simp [hr x hx]]
  | before r c t hr hc ih =>
    have hfilter : r.filter (fun x => !x.separates) = r :=
      List.filter_eq_self.2 fun x hx => by simp [hr x hx]
    have hsep : (Piece.literal c).separates = true := by simp [Piece.separates, hc]
    simp [runs_append_literal hr hc, ih, hfilter, hsep]

theorem mark_mem_iff {t : List Piece} {m : Mark} : .mark m ∈ t ↔ ∃ r ∈ runs t, .mark m ∈ r := by
  rw [← List.mem_flatten, flatten_runs, List.mem_filter]
  simp [Piece.separates]

theorem separates_of_mem_runs {t r : List Piece} (hr : r ∈ runs t) :
    ∀ x ∈ r, x.separates = false := by
  intro x hx
  have hmem : x ∈ (runs t).flatten := List.mem_flatten.2 ⟨r, hr, hx⟩
  rw [flatten_runs] at hmem
  simpa using (List.mem_filter.1 hmem).2

/-- A mark that a template has once is in one run and in no other. -/
theorem exists_run_of_count {t : List Piece} {m : Mark} (h : t.count (.mark m) = 1) :
    ∃ before r after, runs t = before ++ r :: after ∧ r.count (.mark m) = 1 ∧
      ∀ r' ∈ before ++ after, .mark m ∉ r' := by
  have hmem : .mark m ∈ t := List.count_pos_iff.1 (by omega)
  obtain ⟨r, hr, hmark⟩ := mark_mem_iff.1 hmem
  obtain ⟨before, after, hruns⟩ := List.append_of_mem hr
  have hcount : (runs t).flatten.count (.mark m) = 1 := by
    rw [flatten_runs, List.count_filter rfl, h]
  have hpos : 0 < r.count (.mark m) := List.count_pos_iff.2 hmark
  simp only [hruns, List.flatten_append, List.flatten_cons, List.count_append] at hcount
  have hothers : (before ++ after).flatten.count (.mark m) = 0 := by
    rw [List.flatten_append, List.count_append]
    omega
  refine ⟨before, r, after, hruns, by omega, fun r' hr' hmark' => ?_⟩
  exact List.count_eq_zero.1 hothers (List.mem_flatten.2 ⟨r', hr', hmark'⟩)

/-! ## Filled runs -/

variable {v v' : Mark → List Char}

theorem isDigit_of_mem_fill (hv : ∀ m, ∀ c ∈ v m, isDigit c = true) {r : List Piece}
    (hr : ∀ x ∈ r, x.separates = false) {c : Char} (hc : c ∈ fill v r) : isDigit c = true := by
  obtain ⟨x, hx, hc⟩ := List.mem_flatMap.1 hc
  cases x with
  | mark m => exact hv m c hc
  | literal d =>
    obtain rfl := List.mem_singleton.1 hc
    simpa [Piece.separates] using hr _ hx

theorem fill_congr {t : List Piece} (h : ∀ m, .mark m ∈ t → v m = v' m) : fill v t = fill v' t := by
  refine List.flatMap_congr fun x hx => ?_
  cases x with
  | literal c => rfl
  | mark m => exact h m hx

theorem fill_update {k : Mark} {t : List Piece} (hk : .mark k ∉ t) (cs : List Char) :
    fill (Function.update v k cs) t = fill v t :=
  fill_congr fun m hm => Function.update_of_ne (fun hl : m = k => hk (hl ▸ hm)) cs v

/-- Numbers fill a template alike exactly if they fill each of its runs alike. -/
theorem fill_eq_iff (hv : ∀ m, ∀ c ∈ v m, isDigit c = true)
    (hv' : ∀ m, ∀ c ∈ v' m, isDigit c = true) {t : List Piece} :
    fill v t = fill v' t ↔ ∀ r ∈ runs t, fill v r = fill v' r := by
  induction t using runs_induction with
  | single r hr => simp [runs_of_forall hr]
  | before r c t hr hc ih =>
    -- the character that separates stands in neither of the filled runs
    have hnot : c ∉ fill v r := fun hmem => by
      rw [isDigit_of_mem_fill hv hr hmem] at hc
      cases hc
    have hnot' : c ∉ fill v' r := fun hmem => by
      rw [isDigit_of_mem_fill hv' hr hmem] at hc
      cases hc
    simp [runs_append_literal hr hc, Piece.chars, Text.append_sep_inj hnot hnot', ih]

/-! ## Marks kept apart -/

/-- The length of a filled template, by how often it has each mark. -/
theorem length_fill (v : Mark → List Char) (t : List Piece) :
    (fill v t).length = t.count (.mark .process) * (v .process).length +
      t.count (.mark .module) * (v .module).length + (fill (fun _ => []) t).length := by
  induction t with
  | nil => simp
  | cons x t ih =>
    rw [fill_cons, List.length_append, ih]
    rcases x with c | _ | _ <;> simp [Piece.chars] <;> ring

/-- Templates that are filled alike with characters of the same lengths have the same characters for
their marks. -/
theorem eq_of_fill_eq {t : List Piece} {m : Mark} (hm : .mark m ∈ t)
    (hlength : ∀ l, (v l).length = (v' l).length) (h : fill v t = fill v' t) : v m = v' m := by
  induction t with
  | nil => cases hm
  | cons x t ih =>
    rw [fill_cons, fill_cons] at h
    have hx : (x.chars v).length = (x.chars v').length := by
      cases x with
      | literal c => rfl
      | mark l => exact hlength l
    obtain ⟨hfirst, hrest⟩ := List.append_inj h hx
    rcases List.mem_cons.1 hm with rfl | hm
    · exact hfirst
    · exact ih hm hrest

/-- Two runs have the marks in different shares. -/
def Uneven (t : List Piece) : Prop :=
  ∃ r ∈ runs t, ∃ r' ∈ runs t, r.count (.mark .process) * r'.count (.mark .module) ≠
    r'.count (.mark .process) * r.count (.mark .module)

instance (t : List Piece) : Decidable (Uneven t) :=
  inferInstanceAs (Decidable (∃ r ∈ runs t, ∃ r' ∈ runs t,
    r.count (.mark .process) * r'.count (.mark .module) ≠
      r'.count (.mark .process) * r.count (.mark .module)))

/-- A run with one mark only, and one with the other mark, have different shares of them. -/
theorem KeptApart.uneven {t : List Piece} (h : KeptApart t) (ht : ∀ m, .mark m ∈ t) : Uneven t := by
  obtain ⟨r, hr, hone⟩ := h
  by_cases hprocess : Piece.mark .process ∈ r
  · obtain ⟨r', hr', hmodule⟩ := mark_mem_iff.1 (ht .module)
    refine ⟨r, hr, r', hr', ?_⟩
    rw [List.count_eq_zero.2 (hone.1 hprocess), Nat.mul_zero]
    exact (Nat.mul_pos (List.count_pos_iff.2 hprocess) (List.count_pos_iff.2 hmodule)).ne'
  · have hmodule : Piece.mark .module ∈ r := by_contra fun hno => hprocess (hone.2 hno)
    obtain ⟨r', hr', hprocess'⟩ := mark_mem_iff.1 (ht .process)
    refine ⟨r, hr, r', hr', ?_⟩
    rw [List.count_eq_zero.2 hprocess, Nat.zero_mul]
    exact (Nat.mul_pos (List.count_pos_iff.2 hprocess') (List.count_pos_iff.2 hmodule)).ne

/-- Two equations that are not multiples of one another have one solution. -/
theorem eq_of_equations {a b c d x y x' y' : ℕ} (hdet : a * d ≠ c * b)
    (h : a * x + b * y = a * x' + b * y') (h' : c * x + d * y = c * x' + d * y') :
    x = x' ∧ y = y' := by
  have hne : ((a : ℤ) * d - c * b) ≠ 0 := sub_ne_zero.2 (by exact_mod_cast hdet)
  have hfirst : (a : ℤ) * x + b * y = a * x' + b * y' := by exact_mod_cast h
  have hsecond : (c : ℤ) * x + d * y = c * x' + d * y' := by exact_mod_cast h'
  constructor
  · have hx : ((a : ℤ) * d - c * b) * x = ((a : ℤ) * d - c * b) * x' := by
      linear_combination (d : ℤ) * hfirst - (b : ℤ) * hsecond
    exact_mod_cast mul_left_cancel₀ hne hx
  · have hy : ((a : ℤ) * d - c * b) * y = ((a : ℤ) * d - c * b) * y' := by
      linear_combination (a : ℤ) * hsecond - (c : ℤ) * hfirst
    exact_mod_cast mul_left_cancel₀ hne hy

theorem Writer.isDigit_of_mem_shown (w : Writer) :
    ∀ m, ∀ c ∈ w.shown m, isDigit c = true
  | .process, _, hc => isDigit_of_mem_write hc
  | .module, _, hc => isDigit_of_mem_write hc

theorem Writer.shown_injective : Function.Injective Writer.shown := by
  intro a b h
  have hprocess : a.process = b.process := write_injective (congrFun h .process)
  have hsignature : a.signature = b.signature := write_injective (congrFun h .module)
  exact Writer.ext hprocess hsignature

/-- Where two runs have the marks in different shares, no two writers fill the template alike. -/
theorem Uneven.injective {t : List Piece} (h : Uneven t) (ht : ∀ m, .mark m ∈ t) :
    Function.Injective fun w : Writer => fill w.shown t := by
  intro a b heq
  have hruns := (fill_eq_iff a.isDigit_of_mem_shown b.isDigit_of_mem_shown).1 heq
  have hequation : ∀ r ∈ runs t,
      r.count (.mark .process) * (a.shown .process).length +
          r.count (.mark .module) * (a.shown .module).length =
        r.count (.mark .process) * (b.shown .process).length +
          r.count (.mark .module) * (b.shown .module).length := by
    intro r hr
    have hlength := congrArg List.length (hruns r hr)
    rw [length_fill, length_fill b.shown] at hlength
    omega
  obtain ⟨r, hr, r', hr', hdet⟩ := h
  obtain ⟨hprocess, hmodule⟩ := eq_of_equations hdet (hequation r hr) (hequation r' hr')
  -- the lengths of the runs tell the lengths of the numbers, and with them the numbers
  have hlength : ∀ l, (a.shown l).length = (b.shown l).length := fun l => by
    cases l
    · exact hprocess
    · exact hmodule
  exact Writer.shown_injective (funext fun l => eq_of_fill_eq (ht l) hlength heq)

/-! ## Marks side by side -/

/-- Ones in place of the marks. -/
def ones : Mark → List Char := fun _ => ['1']

theorem isDigit_of_mem_ones : ∀ m, ∀ c ∈ ones m, isDigit c = true :=
  fun _ _ hc => List.mem_singleton.1 hc ▸ rfl

/-- Digits that begin as the template does with ones: in place of the marks they leave the
beginning as it is with ones, and go on with a one. -/
theorem exists_front (t : List Piece) (ht : ∀ x ∈ t, x.separates = false) :
    ∃ front, (front ++ ['1']).head? = some '1' ∧ (∀ c ∈ front, isDigit c = true) ∧
      (∀ m, .mark m ∈ t → front ≠ []) ∧
      ∀ rest, ∃ surplus, (surplus ++ ['1']).head? = some '1' ∧
        fill (fun _ => front ++ '1' :: rest) t = fill ones t ++ surplus := by
  induction t with
  | nil => exact ⟨[], rfl, by simp, by simp, fun rest => ⟨[], rfl, rfl⟩⟩
  | cons x t ih =>
    cases x with
    | literal c =>
      obtain ⟨front, hhead, hdigits, hne, hfill⟩ := ih fun x hx => ht x (List.mem_cons_of_mem _ hx)
      refine ⟨front, hhead, hdigits, by simpa using hne, fun rest => ?_⟩
      obtain ⟨surplus, hsurplus, heq⟩ := hfill rest
      exact ⟨surplus, hsurplus, by simp [Piece.chars, heq]⟩
    | mark m =>
      -- from the first mark on, what the template is with ones takes the place of that mark
      refine ⟨fill ones (.mark m :: t), rfl, fun c => ?_, by simp [Piece.chars, ones],
        fun rest => ?_⟩
      · exact isDigit_of_mem_fill isDigit_of_mem_ones ht
      · exact ⟨'1' :: (rest ++ fill (fun _ => fill ones (.mark m :: t) ++ '1' :: rest) t), rfl,
          by rw [fill_cons, Piece.chars, List.append_assoc, List.cons_append]⟩

/-- Digits that end as the template does with ones: in place of the marks they leave the end as it
is with ones. -/
theorem exists_back (t : List Piece) (ht : ∀ x ∈ t, x.separates = false) :
    ∃ back, (∀ c ∈ back, isDigit c = true) ∧ (∀ m, .mark m ∈ t → back ≠ []) ∧
      ∀ lead, ∃ surplus, fill (fun _ => lead ++ back) t = surplus ++ fill ones t := by
  induction t using List.reverseRecOn with
  | nil => exact ⟨[], by simp, by simp, fun lead => ⟨[], rfl⟩⟩
  | append_singleton t x ih =>
    cases x with
    | literal c =>
      obtain ⟨back, hdigits, hne, hfill⟩ := ih fun x hx => ht x (List.mem_append_left _ hx)
      refine ⟨back, hdigits, by simpa using hne, fun lead => ?_⟩
      obtain ⟨surplus, heq⟩ := hfill lead
      exact ⟨surplus, by simp [Piece.chars, heq]⟩
    | mark m =>
      refine ⟨fill ones (t ++ [.mark m]), fun c => ?_, by simp [Piece.chars, ones], fun lead => ?_⟩
      · exact isDigit_of_mem_fill isDigit_of_mem_ones ht
      · exact ⟨fill (fun _ => lead ++ fill ones (t ++ [.mark m])) t ++ lead,
          by simp [Piece.chars, ones]⟩

theorem isDigit_of_mem_append {a b : List Char} (ha : ∀ c ∈ a, isDigit c = true)
    (hb : ∀ c ∈ b, isDigit c = true) : ∀ c ∈ a ++ '1' :: b, isDigit c = true := by
  intro c hc
  rcases List.mem_append.1 hc with hc | hc
  · exact ha c hc
  · rcases List.mem_cons.1 hc with rfl | hc
    · rfl
    · exact hb c hc

theorem head?_append_cons {c : Char} (cs rest : List Char) :
    (cs ++ c :: rest).head? = (cs ++ [c]).head? := by cases cs <;> rfl

/-- A run that has one of the marks once and the other as well can be filled alike with numbers of
which those for the other mark are not the same. -/
theorem exists_same_fill {r : List Piece} (hr : ∀ x ∈ r, x.separates = false) {k : Mark}
    (hk : r.count (.mark k) = 1) (hother : .mark k.other ∈ r) :
    ∃ a b : ℕ, a ≠ 1 ∧
      fill (Function.update (fun _ => write 1) k (write b)) r =
        fill (Function.update (fun _ => write a) k (write 1)) r := by
  have hmem : .mark k ∈ r := List.count_pos_iff.1 (by omega)
  obtain ⟨left, right, rfl⟩ := List.append_of_mem hmem
  have hcount : left.count (.mark k) = 0 ∧ right.count (.mark k) = 0 := by
    simp only [List.count_append, List.count_cons_self] at hk
    omega
  have hleft : .mark k ∉ left := List.count_eq_zero.1 hcount.1
  have hright : .mark k ∉ right := List.count_eq_zero.1 hcount.2
  have hrLeft : ∀ x ∈ left, x.separates = false := fun x hx => hr x (List.mem_append_left _ hx)
  have hrRight : ∀ x ∈ right, x.separates = false := fun x hx => hr x (by simp [hx])
  obtain ⟨front, hhead, hfront, hfront', hfillLeft⟩ := exists_front left hrLeft
  obtain ⟨back, hback, hback', hfillRight⟩ := exists_back right hrRight
  obtain ⟨before, hbefore, hsameLeft⟩ := hfillLeft back
  obtain ⟨after, hsameRight⟩ := hfillRight (front ++ ['1'])
  rw [List.append_assoc, List.singleton_append] at hsameRight
  -- the digits put in place of the other mark, and what they leave for the mark itself
  have hwide : ∀ c ∈ front ++ '1' :: back, isDigit c = true := isDigit_of_mem_append hfront hback
  have hrest : ∀ c ∈ before ++ '1' :: after, isDigit c = true := by
    refine isDigit_of_mem_append (fun c hc => ?_) fun c hc => ?_
    · exact isDigit_of_mem_fill (fun _ => hwide) hrLeft (hsameLeft ▸ List.mem_append_right _ hc)
    · exact isDigit_of_mem_fill (fun _ => hwide) hrRight (hsameRight ▸ List.mem_append_left _ hc)
  have hone : write 1 = ['1'] := rfl
  obtain ⟨a, ha⟩ := exists_write ((head?_append_cons front back).trans hhead) (by decide) hwide
  obtain ⟨b, hb⟩ := exists_write ((head?_append_cons before after).trans hbefore) (by decide) hrest
  refine ⟨a, b, ?_, ?_⟩
  · -- the other mark stands on one of the sides, so there is more than a one in its place
    rintro rfl
    have hlength : 1 = front.length + (back.length + 1) := by
      simpa [hone] using congrArg List.length ha
    have hempty : front = [] ∧ back = [] :=
      ⟨List.length_eq_zero_iff.1 (by omega), List.length_eq_zero_iff.1 (by omega)⟩
    rcases List.mem_append.1 hother with hmem | hmem
    · exact hfront' _ hmem hempty.1
    · refine hback' k.other ((List.mem_cons.1 hmem).resolve_left ?_) hempty.2
      simpa using k.other_ne
  · have hones : (fun _ => write 1) = ones := rfl
    simp only [fill_append, fill_cons, Piece.chars, Function.update_self, fill_update hleft,
      fill_update hright, ha, hb]
    rw [hones, hone, hsameLeft, hsameRight]
    simp

/-- The writer with one number for a mark and another one for the other mark. -/
def Writer.of : Mark → ℕ → ℕ → Writer
  | .process, n, other => ⟨n, other⟩
  | .module, n, other => ⟨other, n⟩

theorem Writer.shown_of (k : Mark) (n other : ℕ) :
    (Writer.of k n other).shown = Function.update (fun _ => write other) k (write n) := by
  funext l
  cases k <;> cases l <;> rfl

/-- Where a mark stands once and the marks are not kept apart, two writers fill the template
alike. -/
theorem exists_collision {t : List Piece} (hapart : ¬ KeptApart t) {k : Mark}
    (hk : t.count (.mark k) = 1) : ∃ a b : Writer, a ≠ b ∧ fill a.shown t = fill b.shown t := by
  obtain ⟨before, r, after, hruns, hcount, hnone⟩ := exists_run_of_count hk
  have hr : r ∈ runs t := by simp [hruns]
  have hboth : ∀ r' ∈ runs t, (Piece.mark k ∈ r' ↔ Piece.mark k.other ∈ r') := by
    intro r' hr'
    have hnot : ¬ (Piece.mark .process ∈ r' ↔ Piece.mark .module ∉ r') := fun hone =>
      hapart ⟨r', hr', hone⟩
    cases k <;> simp only [Mark.other] <;> tauto
  have hmem : .mark k ∈ r := List.count_pos_iff.1 (by omega)
  obtain ⟨a, b, hne, hsame⟩ :=
    exists_same_fill (separates_of_mem_runs hr) hcount ((hboth r hr).1 hmem)
  refine ⟨.of k b 1, .of k 1 a, fun heq => hne ?_, ?_⟩
  · cases k <;> simp_all [Writer.of]
  refine (fill_eq_iff (Writer.isDigit_of_mem_shown _) (Writer.isDigit_of_mem_shown _)).2 ?_
  intro r' hr'
  rw [Writer.shown_of, Writer.shown_of]
  by_cases hk' : .mark k ∈ r'
  · have heq : r' = r := by
      rw [hruns] at hr'
      have hcases : r' ∈ before ++ after ∨ r' = r := by
        simpa [or_assoc, or_comm, or_left_comm] using hr'
      exact hcases.resolve_left fun hother => hnone r' hother hk'
    rw [heq, hsame]
  · -- a run without the mark has none
    have hother : .mark k.other ∉ r' := fun h => hk' ((hboth r' hr').2 h)
    rw [fill_update hk', fill_update hk']
    refine fill_congr fun m hm => ?_
    by_cases hmk : m = k
    · exact absurd (hmk ▸ hm) hk'
    · exact absurd (Mark.eq_other_of_ne hmk ▸ hm) hother

/-! ## Marks in the same shares -/

/-- Whether a piece is a mark. -/
def Piece.isMark : Piece → Bool
  | literal _ => false
  | mark _ => true

/-- No digit stands in one run with a mark. -/
def Bare (t : List Piece) : Prop :=
  ∀ r ∈ runs t, (∃ x ∈ r, x.isMark = true) → ∀ x ∈ r, x.isMark = true

instance (t : List Piece) : Decidable (Bare t) :=
  inferInstanceAs (Decidable
    (∀ r ∈ runs t, (∃ x ∈ r, x.isMark = true) → ∀ x ∈ r, x.isMark = true))

/-- As many ones as are asked for are the digits of a number. -/
theorem exists_write_ones (n : ℕ) : ∃ k, write k = List.replicate (n + 1) '1' := by
  refine exists_write rfl (by decide) fun c hc => ?_
  rw [List.eq_of_mem_replicate hc]
  rfl

/-- Marks alone, filled with ones, are told apart by how many ones there are and by nothing else. -/
theorem fill_eq_of_length {r : List Piece} (hr : ∀ x ∈ r, x.isMark = true)
    (hv : ∀ m, ∀ c ∈ v m, c = '1') (hv' : ∀ m, ∀ c ∈ v' m, c = '1')
    (h : (fill v r).length = (fill v' r).length) : fill v r = fill v' r := by
  have hones : ∀ u : Mark → List Char, (∀ m, ∀ c ∈ u m, c = '1') →
      fill u r = List.replicate (fill u r).length '1' := by
    refine fun u hu => List.eq_replicate_of_mem fun c hc => ?_
    obtain ⟨x, hx, hc⟩ := List.mem_flatMap.1 hc
    cases x with
    | literal d => cases hr _ hx
    | mark m => exact hu m c hc
  rw [hones v hv, hones v' hv', h]

/-- Where all runs have the marks in the same shares, these are the shares of two numbers. -/
theorem exists_share {t : List Piece} (heven : ¬ Uneven t) (ht : ∀ m, .mark m ∈ t) :
    ∃ p m, 0 < m ∧
      ∀ r ∈ runs t, r.count (.mark .process) * m = p * r.count (.mark .module) := by
  obtain ⟨r, hr, hprocess⟩ := mark_mem_iff.1 (ht .process)
  obtain ⟨r', hr', hmodule⟩ := mark_mem_iff.1 (ht .module)
  have hshare : ∀ s ∈ runs t, s.count (.mark .process) * r.count (.mark .module) =
      r.count (.mark .process) * s.count (.mark .module) :=
    fun s hs => by_contra fun hne => heven ⟨s, hs, r, hr, hne⟩
  have hpos : 0 < r.count (.mark .process) := List.count_pos_iff.2 hprocess
  have hboth : 0 < r'.count (.mark .process) * r.count (.mark .module) := by
    rw [hshare r' hr']
    exact Nat.mul_pos hpos (List.count_pos_iff.2 hmodule)
  exact ⟨_, _, Nat.pos_of_mul_pos_left hboth, hshare⟩

/-- Where no digit stands beside a mark and the marks have the same shares in all runs, two writers
fill the template alike: what the one has longer for the process the other has for the module. -/
theorem exists_collision_of_even {t : List Piece} (hbare : Bare t) (heven : ¬ Uneven t)
    (ht : ∀ m, .mark m ∈ t) : ∃ a b : Writer, a ≠ b ∧ fill a.shown t = fill b.shown t := by
  obtain ⟨p, m, hm, hshare⟩ := exists_share heven ht
  obtain ⟨one, hone⟩ := exists_write_ones 0
  obtain ⟨long, hlong⟩ := exists_write_ones m
  obtain ⟨long', hlong'⟩ := exists_write_ones p
  refine ⟨⟨long, one⟩, ⟨one, long'⟩, fun heq => ?_, ?_⟩
  · have hlength := congrArg (fun w : Writer => (w.shown .process).length) heq
    simp only [Writer.shown, hlong, hone, List.length_replicate] at hlength
    omega
  refine (fill_eq_iff (Writer.isDigit_of_mem_shown _) (Writer.isDigit_of_mem_shown _)).2 ?_
  intro r hr
  by_cases hmark : ∃ x ∈ r, x.isMark = true
  · have hdigits : ∀ n k, write k = List.replicate (n + 1) '1' → ∀ c ∈ write k, c = '1' :=
      fun n k hk c hc => List.eq_of_mem_replicate (hk ▸ hc)
    refine fill_eq_of_length (hbare r hr hmark) (fun l => ?_) (fun l => ?_) ?_
    · cases l
      exacts [hdigits m long hlong, hdigits 0 one hone]
    · cases l
      exacts [hdigits 0 one hone, hdigits p long' hlong']
    · rw [length_fill, length_fill (Writer.shown _)]
      simp only [Writer.shown, hlong, hlong', hone, List.length_replicate]
      linear_combination hshare r hr
  · exact fill_congr fun l hl => absurd ⟨.mark l, hl, rfl⟩ hmark

/-! ## Names of profiles -/

/-- Which patterns give each process and module a name of its own. Those that keep the marks apart
do, and so do those that have them in different shares. Of the others none does that has one of the
marks once or no digit beside a mark. -/
theorem expand_injective_iff (suffix : String) {pattern : String}
    (hvalid : validatePattern pattern = .ok ()) :
    let t := template suffix.toList pattern.toList
    (KeptApart t → Function.Injective (expand suffix pattern)) ∧
      (∀ m, t.count (.mark m) = 1 →
        (Function.Injective (expand suffix pattern) ↔ KeptApart t)) ∧
      (Uneven t → Function.Injective (expand suffix pattern)) ∧
      (Bare t → (Function.Injective (expand suffix pattern) ↔ Uneven t)) := by
  intro t
  have hmarks : ∀ m, .mark m ∈ t := mark_mem_of_valid hvalid suffix.toList
  have huneven : Uneven t → Function.Injective (expand suffix pattern) := fun h a b heq =>
    h.injective hmarks (String.ofList_inj.1 heq)
  have hapart : KeptApart t → Function.Injective (expand suffix pattern) := fun h =>
    huneven (h.uneven hmarks)
  refine ⟨hapart, fun m hm => ⟨fun hinj => ?_, hapart⟩, huneven,
    fun hbare => ⟨fun hinj => ?_, huneven⟩⟩
  · by_contra hnot
    obtain ⟨a, b, hne, heq⟩ := exists_collision hnot hm
    exact hne (hinj (congrArg String.ofList heq))
  · by_contra hnot
    obtain ⟨a, b, hne, heq⟩ := exists_collision_of_even hbare hnot hmarks
    exact hne (hinj (congrArg String.ofList heq))

/-- The standard pattern keeps the names apart, and one with the marks side by side does not. Where
both marks are repeated their shares in the runs decide it. -/
theorem expand_injective_standard :
    Function.Injective (expand "_0" "covflow-%p-%m.profraw") ∧
      validatePattern "%p%m.profraw" = .ok () ∧
      ¬ Function.Injective (expand "_0" "%p%m.profraw") ∧
      Function.Injective (expand "_0" "%p%m-%p%p%m.profraw") ∧
      ¬ Function.Injective (expand "" "%p%m-%m%p.profraw") := by
  have hside : validatePattern "%p%m.profraw" = .ok () := by decide +kernel
  refine ⟨(expand_injective_iff "_0" (by decide +kernel)).1 (by decide +kernel), hside, ?_,
    (expand_injective_iff "_0" (by decide +kernel)).2.2.1 (by decide +kernel), ?_⟩
  · rw [(expand_injective_iff "_0" hside).2.1 .process (by decide +kernel)]
    decide +kernel
  · rw [(expand_injective_iff "" (by decide +kernel)).2.2.2 (by decide +kernel)]
    decide +kernel

/-- Process 1 with module 12 and process 11 with module 2 write to one file. -/
theorem expand_collides :
    validatePattern "%p%m.profraw" = .ok () ∧ (⟨1, 12⟩ : Writer) ≠ ⟨11, 2⟩ ∧
      expand "_0" "%p%m.profraw" ⟨1, 12⟩ = expand "_0" "%p%m.profraw" ⟨11, 2⟩ := by
  decide +kernel

end CoverageRun.Profile
