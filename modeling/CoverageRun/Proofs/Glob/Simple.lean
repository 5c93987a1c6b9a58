/-
Simple patterns: a plain text, whose characters all stand for themselves, alone or with one star
behind it. A plain text alone matches itself and nothing else, one with a star every text that
begins with it; a match is of octets, and no octets of one character begin those of another.
-/
import CoverageRun.Proofs.Glob.Literal

namespace CoverageRun.Glob

open Text Marks

/-! ## Plain texts -/

/-- The characters that have a meaning in patterns. -/
def special : List Char := ['*', '?', '[', ']', '{', '}', ',', '\\']

/-- A text whose characters all stand for themselves. -/
def IsPlain (s : String) : Prop := ∀ c ∈ s.toList, c ∉ special

instance (s : String) : Decidable (IsPlain s) :=
  decidable_of_iff ((s.toList.all fun c => !special.contains c) = true) (by simp [IsPlain])

theorem run_literal {c : Char} (hc : c ∉ special) (s : Scan) (r : List Char) :
    s.run (c :: r) = Scan.run { s.push (.literal c) with last := some c } r := by
  simp only [special, List.mem_cons, List.not_mem_nil, or_false, not_or] at hc
  obtain ⟨hstar, hany, hopen, -, hgroup, hclose, hcomma, hescape⟩ := hc
  conv_lhs => unfold Scan.run
  split <;> simp_all

/-- Characters that stand for themselves are read one by one; what follows is read behind them. -/
theorem run_plain : ∀ {cs : List Char}, (∀ c ∈ cs, c ∉ special) → ∀ (s : Scan) (rest : List Char),
    ∃ last, s.run (cs ++ rest) =
      Scan.run ⟨(cs.map Token.literal).reverse ++ s.tokens, s.groups, last⟩ rest
  | [], _, s, rest => ⟨s.last, rfl⟩
  | c :: cs, h, s, rest => by
    obtain ⟨last, hrun⟩ := run_plain (fun d hd => h d (List.mem_cons_of_mem c hd))
      { s.push (.literal c) with last := some c } rest
    refine ⟨last, ?_⟩
    rw [List.cons_append, run_literal (h c List.mem_cons_self), hrun]
    simp [Scan.push]

/-! ## Stars -/

theorem passAll_append (text : List UInt8) : ∀ (ts ts' : List Token) (marks : Marks),
    passAll text marks (ts ++ ts') = passAll text (passAll text marks ts) ts'
  | [], _, _ => rfl
  | t :: ts, ts', marks => passAll_append text ts ts' (t.pass text marks)

/-- A star at the end leads to the end from every mark. -/
theorem atEnd_spread (reached : Bool) : ∀ {marks : Marks}, marks ≠ [] →
    ((spread reached marks).atEnd = true ↔ reached = true ∨ true ∈ marks)
  | [], h => absurd rfl h
  | [m], _ => by cases m <;> cases reached <;> simp [spread, atEnd]
  | m :: m' :: marks, _ => by
    have hend : (spread reached (m :: m' :: marks)).atEnd =
      (spread (reached || m) (m' :: marks)).atEnd := rfl
    rw [hend, atEnd_spread (reached || m) (List.cons_ne_nil m' marks)]
    cases reached <;> cases m <;> simp

theorem true_mem_iff {marks : Marks} : true ∈ marks ↔ ∃ i, marks.reaches i = true := by
  rw [List.mem_iff_getElem?]
  refine exists_congr fun i => ?_
  unfold reaches
  cases marks[i]? <;> simp

/-- Literal characters with a star behind them match octets that begin with theirs, and no others.
-/
theorem takes_starred (label : String) (cs : List Char) (text : List UInt8) :
    (Pattern.mk label (cs.map .literal ++ [.star])).takes text = true ↔
      cs.flatMap charOctets <+: text := by
  have htakes : (Pattern.mk label (cs.map .literal ++ [.star])).takes text =
      (spread false (passOctets text (start text) (cs.flatMap charOctets))).atEnd := by
    unfold Pattern.takes
    split
    · rename_i heq
      cases cs <;> simp at heq
    · rw [passAll_append, passAll_literals]
      rfl
  have hne : passOctets text (start text) (cs.flatMap charOctets) ≠ [] := by
    have hfit := fit_passOctets (cs.flatMap charOctets) (fit_start text)
    exact List.ne_nil_of_length_eq_add_one hfit
  -- the star leads to the end from wherever the octets have led to
  rw [htakes, atEnd_spread false hne, true_mem_iff]
  simp only [Bool.false_eq_true, false_or, reaches_passOctets]
  constructor
  · rintro ⟨i, j, -, hj, hpre⟩
    rw [reaches_start, decide_eq_true_eq] at hj
    rwa [hj] at hpre
  · intro hpre
    exact ⟨_, 0, rfl, by rw [reaches_start]; rfl, hpre⟩

theorem accepts_starred (label lead s : String) :
    (Pattern.mk label (lead.toList.map .literal ++ [.star])).accepts s = true ↔
      lead.toList <+: s.toList := by
  unfold Pattern.accepts
  rw [takes_starred, flatMap_charOctets, octets_prefix_iff]

/-! ## Simple patterns -/

/-- A text that is to be matched, or the beginning of what is. -/
inductive Simple where
  | exactly (s : String)
  | beginning (lead : String)
  deriving DecidableEq, Repr

namespace Simple

/-- The text of the pattern. -/
def text : Simple → String
  | exactly s => s
  | beginning lead => lead ++ "*"

/-- What the pattern says is plain text. -/
def Plain : Simple → Prop
  | exactly s => IsPlain s
  | beginning lead => IsPlain lead

instance : (p : Simple) → Decidable p.Plain
  | exactly s => inferInstanceAs (Decidable (IsPlain s))
  | beginning lead => inferInstanceAs (Decidable (IsPlain lead))

/-- The texts that the pattern is for. -/
def Matches : Simple → String → Prop
  | exactly s, x => x = s
  | beginning lead, x => ∃ rest, x = lead ++ rest

def tokens : Simple → List Token
  | exactly s => s.toList.map .literal
  | beginning lead => lead.toList.map .literal ++ [.star]

theorem parse_text {p : Simple} (h : p.Plain) : Pattern.parse p.text = .ok ⟨p.text, p.tokens⟩ := by
  unfold Pattern.parse
  cases p with
  | exactly s =>
    obtain ⟨last, hrun⟩ := run_plain h ⟨[], [], none⟩ []
    rw [List.append_nil] at hrun
    rw [text, hrun]
    simp [Scan.run, tokens, Except.map]
  | beginning lead =>
    obtain ⟨last, hrun⟩ := run_plain h ⟨[], [], none⟩ ['*']
    rw [text, String.toList_append, show "*".toList = ['*'] from rfl, hrun]
    simp [Scan.run, Scan.push, tokens, Except.map]

theorem accepts_iff (label : String) (p : Simple) (x : String) :
    (Pattern.mk label p.tokens).accepts x = true ↔ p.Matches x := by
  cases p with
  | exactly s => exact accepts_literals label s x
  | beginning lead =>
    rw [tokens, accepts_starred]
    constructor
    · rintro ⟨rest, hrest⟩
      exact ⟨String.ofList rest, String.toList_inj.1 (by simp [hrest])⟩
    · rintro ⟨rest, rfl⟩
      rw [String.toList_append]
      exact List.prefix_append _ _

theorem literals?_map : ∀ cs : List Char, literals? (cs.map .literal) = some cs
  | [] => rfl
  | c :: cs => by rw [List.map_cons, literals?, literals?_map cs]; rfl

/-- A beginning is not the last name of a path. -/
theorem isAboutName_beginning {lead : String} (h : lead ≠ "") :
    isAboutName (beginning lead).tokens = false := by
  obtain ⟨c, cs, hlead⟩ := List.exists_cons_of_ne_nil (mt String.toList_eq_nil_iff.1 h)
  have hbeginning : namesBeginning (tokens (beginning lead)) = true := by
    unfold namesBeginning tokens
    rw [List.getLast?_concat, List.dropLast_concat, isLiteralRun, literals?_map, hlead]
    rfl
  unfold isAboutName
  rw [hbeginning, tokens, hlead]
  simp [namesFile, namesExtension]

end Simple

end CoverageRun.Glob
