/-
What equal reports are written as. Reports are compared by the parts of their paths, and a report is
written with its paths as they are spelled. So equal reports have the same text exactly if their paths
are spelled alike: the text tells the spelling of a path, since no other spelling of the same parts
has as many line feeds and goes on with one.
-/
import CoverageRun.Proofs.Coverage.RoundTrip
import CoverageRun.Proofs.Path
import CoverageRun.Proofs.Text.Octets
import Mathlib.Data.List.Forall2

namespace CoverageRun

/-! ## Line feeds in paths -/

namespace Text

theorem count_split {sep c : Char} (hc : c ≠ sep) :
    ∀ l : List Char, ((split sep l).map (List.count c)).sum = l.count c
  | [] => by simp [split]
  | x :: l => by
    have ih := count_split hc l
    simp only [split]
    split
    · rename_i hx
      subst hx
      simp [ih, List.count_cons_of_ne (Ne.symm hc)]
    · cases hs : split sep l with
      | nil => exact absurd hs (split_ne_nil sep l)
      | cons p ps =>
        rw [hs] at ih
        simp only [List.map_cons, List.sum_cons, List.count_cons] at ih ⊢
        omega

/-- Beginnings of one text, each before a separator and with equally many in it, are the same. -/
theorem eq_of_append_sep {sep : Char} {a b x y : List Char} (h : a ++ sep :: x = b ++ sep :: y)
    (hcount : a.count sep = b.count sep) : a = b := by
  -- the longer one goes on with the separator where the shorter one ends
  rcases List.append_eq_append_iff.1 h with ⟨more, rfl, hmore⟩ | ⟨more, rfl, hmore⟩
  · cases more with
    | nil => exact (List.append_nil a).symm
    | cons c more =>
      cases hmore
      simp [List.count_append] at hcount
  · cases more with
    | nil => exact List.append_nil b
    | cons c more =>
      cases hmore
      simp [List.count_append] at hcount

end Text

namespace Path

def feeds (s : Part) : Nat := s.text.toList.count '\n'

theorem sum_feeds_ofPiece? : ∀ pieces : List (List Char),
    ((pieces.filterMap Part.ofPiece?).map feeds).sum = (pieces.map (List.count '\n')).sum
  | [] => rfl
  | piece :: pieces => by
    have ih := sum_feeds_ofPiece? pieces
    cases hs : Part.ofPiece? piece with
    | some s =>
      rw [List.filterMap_cons_some hs]
      simp only [List.map_cons, List.sum_cons, ih, feeds, Part.text_of_ofPiece? hs]
    | none =>
      -- a piece that stands for no part is empty or a dot
      have hnone : piece.count '\n' = 0 := by
        unfold Part.ofPiece? at hs
        split at hs <;> first | rfl | cases hs
      rw [List.filterMap_cons_none hs, ih, List.map_cons, List.sum_cons, hnone, Nat.zero_add]

/-- The line feeds of a path are in its parts. -/
theorem sum_feeds_parts (p : Path) : (p.parts.map feeds).sum = p.text.toList.count '\n' := by
  have hsteps : ((stepsIn p.text.toList).map feeds).sum = p.text.toList.count '\n' := by
    rw [stepsIn, sum_feeds_ofPiece?, Text.count_split (by decide)]
  -- a root or a leading dot has no line feed
  rw [parts_eq, List.map_append, List.sum_append, hsteps]
  split
  · exact Nat.zero_add _
  · split <;> exact Nat.zero_add _

/-- Two spellings of a path that go on with a line feed begin one text only if they are one. -/
theorem eq_of_parts_of_append {p q : Path} (hparts : p.parts = q.parts) {x y : List Char}
    (h : p.text.toList ++ '\n' :: x = q.text.toList ++ '\n' :: y) : p = q := by
  have hcount : p.text.toList.count '\n' = q.text.toList.count '\n' := by
    rw [← sum_feeds_parts, ← sum_feeds_parts, hparts]
  have htext := String.toList_inj.1 (Text.eq_of_append_sep h hcount)
  cases p
  cases q
  exact congrArg Path.mk htext

end Path

namespace Coverage

/-! ## Texts of files -/

namespace FileRecord

/-- What the text of a file begins with, before its path. -/
def lead : List Char := ['T', 'N', ':', '\n', 'S', 'F', ':']

/-- The text of a file behind its path. -/
def rest (r : FileRecord) : List Char :=
  ((r.body ++ [Statement.finish]).map Statement.line).flatMap (· ++ ['\n'])

def text (path : Path) (r : FileRecord) : List Char := lead ++ (path.text.toList ++ '\n' :: r.rest)

theorem text_eq (path : Path) (r : FileRecord) :
    ((r.statements path).map Statement.line).flatMap (· ++ ['\n']) = r.text path := by
  rw [statements_eq]
  simp [text, lead, rest, Statement.line]

theorem text_append (path : Path) (r : FileRecord) (more : List Char) :
    r.text path ++ more = lead ++ (path.text.toList ++ '\n' :: (r.rest ++ more)) := by
  simp [text]

end FileRecord

/-- Files that are the same but for the spelling of their paths. -/
def SameFile (a b : Path × FileRecord) : Prop := a.1.parts = b.1.parts ∧ a.2 = b.2

/-- Files that are the same but for the spelling are spelled alike where their texts are equal. -/
theorem eq_of_texts : ∀ {es es' : List (Path × FileRecord)}, List.Forall₂ SameFile es es' →
    (es.flatMap fun e => e.2.text e.1) = (es'.flatMap fun e => e.2.text e.1) → es = es'
  | [], [], .nil, _ => rfl
  | (p, r) :: es, (q, r') :: es', .cons ⟨hparts, hr⟩ hes, h => by
    obtain rfl : r = r' := hr
    simp only [List.flatMap_cons, FileRecord.text_append] at h
    have hpath := List.append_cancel_left h
    obtain rfl := Path.eq_of_parts_of_append hparts hpath
    -- the first files have one text, so the others have
    have hrest := List.append_cancel_left (List.cons.inj (List.append_cancel_left hpath)).2
    rw [eq_of_texts hes hrest]

theorem eq_of_paths : ∀ {es es' : List (Path × FileRecord)}, List.Forall₂ SameFile es es' →
    es.map Prod.fst = es'.map Prod.fst → es = es'
  | [], [], .nil, _ => rfl
  | (p, r) :: es, (q, r') :: es', .cons ⟨_, hr⟩ hes, h => by
    obtain ⟨hp, hrest⟩ := List.cons.inj h
    rw [eq_of_paths hes hrest, show p = q from hp, show r = r' from hr]

namespace Report

/-- Reports are the same if their files are, one after another. -/
theorem same_iff {r s : Report} :
    r.same s = true ↔ List.Forall₂ SameFile r.files.entries s.files.entries := by
  rw [List.forall₂_iff_zip]
  simp [same, size, Store.OrderedMap.size, SameFile, Path.same]

theorem toList_render_files (r : Report) :
    r.render.toList = r.files.entries.flatMap fun e => e.2.text e.1 := by
  simp only [toList_render, statements, List.map_flatMap, List.flatMap_assoc, FileRecord.text_eq]

/-- Equal reports are written alike, octet for octet, exactly if their paths are spelled alike; they
have one digest then. -/
theorem render_eq_iff {r s : Report} (h : r.same s = true) :
    (r.render = s.render ↔ r.paths = s.paths) ∧ (r.octets = s.octets ↔ r.paths = s.paths) ∧
    (r.paths = s.paths → r.digest = s.digest) := by
  have hof : r.files.entries = s.files.entries → r = s := fun he =>
    congrArg Report.mk (Store.OrderedMap.eq_of_entries he)
  have hrender : r.render = s.render → r = s := by
    intro htext
    refine hof (eq_of_texts (same_iff.1 h) ?_)
    rw [← toList_render_files, ← toList_render_files, htext]
  have hpaths : r.paths = s.paths → r = s := fun hp => hof (eq_of_paths (same_iff.1 h) hp)
  refine ⟨⟨?_, ?_⟩, ⟨?_, ?_⟩, ?_⟩
  · exact fun htext => congrArg paths (hrender htext)
  · exact fun hp => congrArg render (hpaths hp)
  · exact fun ho => congrArg paths (hrender (Text.octets_inj ho))
  · exact fun hp => congrArg octets (hpaths hp)
  · exact fun hp => congrArg digest (hpaths hp)

/-- A file with a doubled slash in its path, and the same file without. -/
def doubled : Report := ⟨.ofList [(⟨"a//b"⟩, .empty)]⟩

def single : Report := ⟨.ofList [(⟨"a/b"⟩, .empty)]⟩

theorem render_eq_iff_doubled :
    doubled.same single = true ∧ doubled.render ≠ single.render := by
  have hsame : doubled.same single = true := by decide +kernel
  refine ⟨hsame, fun htext => ?_⟩
  exact absurd ((render_eq_iff hsame).1.1 htext) (by decide +kernel)

/-- Reports that are read from two texts, are equal and are written in two ways. -/
theorem equal_reports_differ :
    ∃ r s, parse "SF:a//b\nend_of_record\n" = .ok r ∧ parse "SF:a/b\nend_of_record\n" = .ok s ∧
      r.same s = true ∧ r.render ≠ s.render ∧ r.digest ≠ s.digest := by
  have hdoubled : parse "SF:a//b\nend_of_record\n" = .ok doubled := by decide +kernel
  have hsingle : parse "SF:a/b\nend_of_record\n" = .ok single := by decide +kernel
  exact ⟨doubled, single, hdoubled, hsingle, by decide +kernel, by decide +kernel, by decide +kernel⟩

end Report

end Coverage

end CoverageRun
