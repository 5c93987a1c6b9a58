/-
Which texts are tracefiles. A text is read if none of its lines is malformed and its counts have a
place in 64 bits; else it is refused for its first malformed line, whatever stands behind that line.
So the beginning of a tracefile is a tracefile, and blanks around lines never matter.
-/
import CoverageRun.Proofs.Coverage.Grammar

namespace CoverageRun.Coverage

open Text
open Statement (WellFormed Malformed RecordOpen Reading)

/-! ## Lines one after another -/

namespace Progress

theorem steps_snoc (lines : List (List Char)) (line : List Char) (number : Nat) (p : Progress) :
    p.steps number (lines ++ [line]) =
      (p.steps number lines).bind fun q => q.step (number + lines.length) line := by
  rw [steps_append]
  congr 1
  funext q
  show q.step _ line >>= pure = _
  exact bind_pure _

/-- A line that is taken is not malformed, and leaves a record open where the grammar says so. -/
theorem step_eq_ok {p q : Progress} {number : Nat} {before : List (List Char)} {line : List Char}
    (hopen : p.opened.isSome = true ↔ RecordOpen before) (h : p.step number line = .ok q) :
    ¬ Malformed before line ∧ (q.opened.isSome = true ↔ RecordOpen (before ++ [line])) := by
  rw [step_eq] at h
  rw [← Statement.isSome_fault?_read_iff hopen, ← Statement.isSome_opens_read_iff hopen]
  split at h
  · cases h
  · rename_i hfault
    refine ⟨by simp [hfault], ?_⟩
    cases ha : p.advance? (Statement.read line) with
    | none => rw [ha] at h; cases h
    | some q' =>
      rw [ha] at h
      cases h
      rw [opened_advance? ha]

/-- A malformed line is refused by its number, for a fault that only the lines before it bear on. -/
theorem step_eq_malformed {p : Progress} {before : List (List Char)} {line : List Char}
    (hopen : p.opened.isSome = true ↔ RecordOpen before) (h : Malformed before line) :
    ∃ fault, ∀ number, p.step number line = .error (.malformed number fault) := by
  rw [← Statement.isSome_fault?_read_iff hopen] at h
  obtain ⟨fault, hfault⟩ := Option.isSome_iff_exists.1 h
  exact ⟨fault, fun number => by rw [step_eq, hfault]⟩

/-- A line refused by number is malformed, and the number is its own. -/
theorem malformed_of_step {p : Progress} {number n : Nat} {fault : Statement.Fault}
    {before : List (List Char)} {line : List Char}
    (hopen : p.opened.isSome = true ↔ RecordOpen before)
    (h : p.step number line = .error (.malformed n fault)) : Malformed before line ∧ n = number := by
  rw [step_eq] at h
  rw [← Statement.isSome_fault?_read_iff hopen]
  split at h
  · rename_i hfault
    cases h
    exact ⟨by simp [hfault], rfl⟩
  · cases ha : p.advance? (Statement.read line) <;> rw [ha] at h <;> cases h

/-- Lines that are taken are well-formed. -/
theorem wellFormed_of_steps (lines : List (List Char)) : ∀ {q : Progress},
    start.steps 1 lines = .ok q →
      WellFormed lines ∧ (q.opened.isSome = true ↔ RecordOpen lines) := by
  induction lines using List.reverseRecOn with
  | nil =>
    intro q h
    cases h
    exact ⟨Statement.wellFormed_nil, iff_of_false (by simp [opened, start]) Statement.recordOpen_nil⟩
  | append_singleton lines line ih =>
    intro q h
    rw [steps_snoc] at h
    cases hp : start.steps 1 lines with
    | error e => rw [hp] at h; cases h
    | ok p =>
      rw [hp] at h
      obtain ⟨hlines, hopen⟩ := ih hp
      obtain ⟨hline, hopen'⟩ := step_eq_ok hopen h
      exact ⟨(Statement.wellFormed_snoc lines line).2 ⟨hlines, hline⟩, hopen'⟩

/-- Lines that are refused by number have a first malformed line, and the number is its own. -/
theorem malformed_of_steps (lines : List (List Char)) : ∀ {n : Nat} {fault : Statement.Fault},
    start.steps 1 lines = .error (.malformed n fault) →
      ∃ front line rest, lines = front ++ line :: rest ∧ WellFormed front ∧ Malformed front line ∧
        n = front.length + 1 := by
  induction lines using List.reverseRecOn with
  | nil => intro n fault h; cases h
  | append_singleton lines line ih =>
    intro n fault h
    rw [steps_snoc] at h
    cases hp : start.steps 1 lines with
    | error e =>
      rw [hp] at h
      cases h
      obtain ⟨front, first, rest, rfl, hfront, hfirst, hn⟩ := ih hp
      exact ⟨front, first, rest ++ [line], by simp, hfront, hfirst, hn⟩
    | ok p =>
      rw [hp] at h
      obtain ⟨hlines, hopen⟩ := wellFormed_of_steps lines hp
      obtain ⟨hline, hn⟩ := malformed_of_step hopen h
      exact ⟨lines, line, [], rfl, hlines, hline, by rw [hn, Nat.add_comm]⟩

/-- Well-formed lines are taken if their counts have a place in 64 bits. -/
theorem steps_eq_ok {lines : List (List Char)} (h : WellFormed lines)
    (hsmall : ¬ Overflows (entriesFrom none (lines.map Statement.read))) :
    ∃ q, start.steps 1 lines = .ok q := by
  rcases steps_cases lines 1 start with ⟨q, hq, -⟩ | ⟨-, x, hx⟩ | ⟨n, fault, hfault, -⟩
  · exact ⟨q, hq⟩
  · rw [tally_start, Pi.zero_apply, zero_add] at hx
    exact absurd (Report.overflows_of_tally hx) hsmall
  · obtain ⟨front, line, rest, heq, -, hline, -⟩ := malformed_of_steps lines hfault
    exact absurd hline (h front line rest heq)

/-- What is read is all that matters of lines. -/
theorem steps_congr : ∀ {lines lines' : List (List Char)} (number : Nat) (p : Progress),
    lines'.map Statement.read = lines.map Statement.read →
      p.steps number lines' = p.steps number lines
  | [], [], _, _, _ => rfl
  | line :: lines, line' :: lines', number, p, h => by
    obtain ⟨hline, hlines⟩ := List.cons.inj h
    have hstep : p.step number line' = p.step number line := by rw [step_eq, step_eq, hline]
    simp only [steps, hstep]
    congr 1
    funext q
    exact steps_congr (number + 1) q hlines
  | [], _ :: _, _, _, h => nomatch h
  | _ :: _, [], _, _, h => nomatch h

end Progress

/-! ## Blanks -/

/-- A line with blanks added at its ends. -/
def Padded (line padded : List Char) : Prop :=
  ∃ before after, padded = before ++ line ++ after ∧ (∀ c ∈ before, isBlank c = true) ∧
    ∀ c ∈ after, isBlank c = true

theorem trim_of_padded {line padded : List Char} (h : Padded line padded) :
    trim padded = trim line := by
  obtain ⟨before, after, rfl, hbefore, hafter⟩ := h
  rw [trim_append_right hafter, trim_append_left hbefore]

@[simp]
theorem Statement.read_trim (line : List Char) : read (trim line) = read line := by
  unfold read
  rw [trim_trim]

theorem Statement.read_congr {line line' : List Char} (h : trim line' = trim line) :
    read line' = read line := by
  rw [← read_trim line', h, read_trim]

theorem Statement.read_padded {lines lines' : List (List Char)} (h : List.Forall₂ Padded lines lines') :
    lines'.map read = lines.map read := by
  induction h with
  | nil => rfl
  | cons hline _ ih => rw [List.map_cons, List.map_cons, ih, read_congr (trim_of_padded hline)]

/-- The pieces of a text between its line feeds are read as its lines are, if for a blank piece at the
end. -/
theorem read_split (cs : List Char) :
    (split '\n' cs).map Statement.read = (lines cs).map Statement.read ∨
      (split '\n' cs).map Statement.read = (lines cs).map Statement.read ++ [.blank] := by
  have hreturn : Statement.read ∘ dropReturn = Statement.read :=
    funext fun line => Statement.read_congr (trim_dropReturn line)
  obtain ⟨init, last, hsplit⟩ := (List.eq_nil_or_concat _).resolve_left (split_ne_nil '\n' cs)
  rw [List.concat_eq_append] at hsplit
  simp only [lines, hsplit, List.dropLast_concat, List.getLast?_concat, Option.getD_some, List.map_append,
    List.map_map, hreturn]
  split
  · rename_i hlast
    rw [hlast, List.map_nil, List.append_nil]
    exact .inr rfl
  · exact .inl rfl

/-- A blank line at the end changes nothing. -/
theorem Progress.steps_snoc_blank {lines lines' : List (List Char)} {number : Nat} {p : Progress}
    (h : lines'.map Statement.read = lines.map Statement.read ++ [.blank]) :
    p.steps number lines' = p.steps number lines := by
  have hread : lines'.map Statement.read = (lines ++ [[]]).map Statement.read := by
    rw [h, List.map_append]
    rfl
  rw [steps_congr number p hread, steps_snoc]
  cases p.steps number lines <;> rfl

/-- A text can be read piece by piece instead of line by line. -/
theorem Progress.steps_split (cs : List Char) (number : Nat) (p : Progress) :
    p.steps number (split '\n' cs) = p.steps number (lines cs) := by
  rcases read_split cs with h | h
  · exact steps_congr number p h
  · exact steps_snoc_blank h

/-! ## Entries of beginnings -/

theorem entriesFrom_append (opened : Option Path) : ∀ a b : List Reading,
    entriesFrom opened (a ++ b) =
      entriesFrom opened a ++ entriesFrom (a.foldl (fun o r => r.opens o) opened) b
  | [], _ => rfl
  | r :: a, b => by
    simp only [List.cons_append, entriesFrom, List.foldl_cons, entriesFrom_append _ a b,
      List.append_assoc]

theorem entriesFrom_of_prefix {opened : Option Path} {a b : List Reading} (h : a <+: b) :
    entriesFrom opened a <+: entriesFrom opened b := by
  obtain ⟨rest, rfl⟩ := h
  rw [entriesFrom_append]
  exact List.prefix_append _ _

theorem Overflows.of_prefix {es es' : List Entry} (h : Overflows es) (hp : es <+: es') :
    Overflows es' := by
  obtain ⟨more, rfl⟩ := hp
  obtain ⟨path, key, hlarge⟩ := h
  refine ⟨path, key, hlarge.trans ?_⟩
  simp [contributions, total]

namespace Report

/-! ## Texts -/

theorem parse_eq_ok_iff {text : String} (hsmall : ¬ Overflows (entries text)) :
    (∃ r, parse text = .ok r) ↔ WellFormed (lines text.toList) := by
  constructor
  · rintro ⟨r, h⟩
    unfold parse at h
    cases hp : Progress.start.steps 1 (lines text.toList) with
    | error e => rw [hp] at h; cases h
    | ok p => exact (Progress.wellFormed_of_steps _ hp).1
  · intro h
    rcases parse_cases text with ⟨r, hr, -⟩ | ⟨-, hlarge⟩ | ⟨n, fault, hr, -⟩
    · exact ⟨r, hr⟩
    · exact absurd hlarge hsmall
    · obtain ⟨p, hp⟩ := Progress.steps_eq_ok h hsmall
      unfold parse at hr
      rw [hp] at hr
      cases hc : p.close? <;> simp only [bind, Except.bind, hc] at hr <;> cases hr

/-- A text whose lines have a malformed one among them is refused for the first of them. -/
theorem parse_eq_malformed {front : List (List Char)} {line : List Char} (hfront : WellFormed front)
    (hline : Malformed front line)
    (hsmall : ¬ Overflows (entriesFrom none (front.map Statement.read))) :
    ∃ fault, ∀ text rest, lines text.toList = front ++ line :: rest →
      parse text = .error (.malformed (front.length + 1) fault) := by
  obtain ⟨p, hp⟩ := Progress.steps_eq_ok hfront hsmall
  obtain ⟨fault, hfault⟩ := Progress.step_eq_malformed (Progress.wellFormed_of_steps _ hp).2 hline
  refine ⟨fault, fun text rest heq => ?_⟩
  unfold parse
  rw [heq, Progress.steps_append, hp]
  simp only [Except.bind, Progress.steps, hfault, Nat.add_comm 1]
  rfl

/-- The beginning of a tracefile is a tracefile. -/
theorem parse_prefix {text text' : String} {r : Report} (h : parse text = .ok r)
    (hp : lines text'.toList <+: lines text.toList) : ∃ r', parse text' = .ok r' := by
  have hsmall : ¬ Overflows (entries text) := not_overflows_of_tally (tally_of_parse h).1
  have hlines : WellFormed (lines text.toList) := (parse_eq_ok_iff hsmall).1 ⟨r, h⟩
  have hentries : entries text' <+: entries text := entriesFrom_of_prefix (hp.map Statement.read)
  exact (parse_eq_ok_iff fun hlarge => hsmall (hlarge.of_prefix hentries)).2 (hlines.of_prefix hp)

/-- Blanks at the ends of lines change nothing. -/
theorem parse_padded {text text' : String}
    (h : List.Forall₂ Padded (split '\n' text.toList) (split '\n' text'.toList)) :
    parse text' = parse text := by
  unfold parse
  rw [← Progress.steps_split, ← Progress.steps_split, Progress.steps_congr 1 .start (Statement.read_padded h)]

/-- Reading accepts exactly its grammar and names the first offender. Where the counts have a place in
64 bits, a text is read if none of its lines is malformed, and else it is refused by the number of the
first malformed line; what stands behind that line has no part in it. The lines that a tracefile begins
with are a tracefile, and blanks at the ends of lines change nothing. -/
theorem parse_grammar :
    (∀ text, ¬ Overflows (entries text) →
      ((∃ r, parse text = .ok r) ↔ WellFormed (lines text.toList)) ∧
      (¬ WellFormed (lines text.toList) → ∃ front line rest fault,
        lines text.toList = front ++ line :: rest ∧ WellFormed front ∧ Malformed front line ∧
        parse text = .error (.malformed (front.length + 1) fault))) ∧
    (∀ front line, WellFormed front → Malformed front line →
      ¬ Overflows (entriesFrom none (front.map Statement.read)) →
      ∃ fault, ∀ text rest, lines text.toList = front ++ line :: rest →
        parse text = .error (.malformed (front.length + 1) fault)) ∧
    (∀ text text' r, parse text = .ok r → lines text'.toList <+: lines text.toList →
      ∃ r', parse text' = .ok r') ∧
    ∀ text text', List.Forall₂ Padded (split '\n' text.toList) (split '\n' text'.toList) →
      parse text' = parse text := by
  refine ⟨fun text hsmall => ⟨parse_eq_ok_iff hsmall, fun hlines => ?_⟩,
    fun front line => parse_eq_malformed, fun text text' r => parse_prefix,
    fun text text' => parse_padded⟩
  obtain ⟨front, line, rest, heq, hfront, hline⟩ := Statement.exists_first_malformed _ hlines
  have hentries : entriesFrom none (front.map Statement.read) <+: entries text := by
    unfold entries readings
    rw [heq, List.map_append]
    exact entriesFrom_of_prefix (List.prefix_append _ _)
  obtain ⟨fault, hfault⟩ :=
    parse_eq_malformed hfront hline fun hlarge => hsmall (hlarge.of_prefix hentries)
  exact ⟨front, line, rest, fault, heq, hfront, hline, hfault text rest heq⟩

/-- A tracefile with a remark, a count that is no whole number and a record without an end. -/
def plainText : String := "TN:\nSF:a\nDA:1,+2.5e0,x\nFNDA:3,f,g"

/-- The same lines with blanks around them. -/
def paddedText : String := "TN:\r\n\t SF:a\r\nDA:1,+2.5e0,x\u2003\nFNDA:3,f,g "

theorem parse_grammar_plain :
    WellFormed (lines plainText.toList) ∧ (∃ r, parse "TN:\nSF:a\n" = .ok r) ∧
    parse paddedText = parse plainText ∧
    ∃ fault, parse "TN:\nSF:a\n\nDA:1,-" = .error (.malformed 4 fault) ∧
      parse "TN:\nSF:a\n\nDA:1,-\nDA" = .error (.malformed 4 fault) := by
  have hread : ∀ text : String, (parse text).isOk = true → ∃ r, parse text = .ok r := by
    intro text h
    cases hr : parse text with
    | ok r => exact ⟨r, rfl⟩
    | error e => rw [hr] at h; cases h
  have hsmall : ∀ {text r}, parse text = .ok r → ¬ Overflows (entries text) :=
    fun h => not_overflows_of_tally (tally_of_parse h).1
  obtain ⟨r, hplain⟩ := hread plainText (by decide +kernel)
  obtain ⟨r', hfront⟩ := hread "TN:\nSF:a\n\n" (by decide +kernel)
  have hmalformed : Malformed ["TN:".toList, "SF:a".toList, []] "DA:1,-".toList := by
    refine ⟨by decide, by unfold Statement.OpensRecord; decide, .inr (.inr ?_)⟩
    refine ⟨['D', 'A'], "1,-".toList, by decide, by decide, by decide, .inr ?_⟩
    rw [← Statement.isOk_readLine_iff]
    decide +kernel
  refine ⟨((parse_grammar.1 plainText (hsmall hplain)).1).1 ⟨r, hplain⟩,
    parse_grammar.2.2.1 plainText _ r hplain (by decide +kernel), ?_, ?_⟩
  · refine parse_grammar.2.2.2 plainText paddedText ?_
    have hpad : ∀ before line after, before.all isBlank = true → after.all isBlank = true →
        Padded line (before ++ line ++ after) := fun before line after hbefore hafter =>
      ⟨before, after, rfl, List.all_eq_true.1 hbefore, List.all_eq_true.1 hafter⟩
    have hsplit : split '\n' paddedText.toList =
        ["TN:\r".toList, "\t SF:a\r".toList, "DA:1,+2.5e0,x\u2003".toList, "FNDA:3,f,g ".toList] := by
      decide +kernel
    rw [hsplit]
    exact .cons (hpad [] "TN:".toList ['\r'] rfl rfl) (.cons (hpad ['\t', ' '] "SF:a".toList ['\r'] rfl rfl)
      (.cons (hpad [] "DA:1,+2.5e0,x".toList ['\u2003'] rfl rfl)
        (.cons (hpad [] "FNDA:3,f,g".toList [' '] rfl rfl) .nil)))
  · obtain ⟨fault, h⟩ := parse_grammar.2.1 _ _
      (((parse_grammar.1 _ (hsmall hfront)).1).1 ⟨r', hfront⟩) hmalformed (hsmall hfront)
    exact ⟨fault, h _ [] (by decide +kernel), h _ ["DA".toList] (by decide +kernel)⟩

end Report

end CoverageRun.Coverage
