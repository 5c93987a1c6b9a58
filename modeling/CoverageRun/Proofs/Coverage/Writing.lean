/-
Writing under a limit. A report is written in loops within loops, and a refused piece ends all of
them at once: what the writer has then taken are the leading pieces of the report that it had room
for. So a report is written exactly if there is room for its text, and always up to some place.
-/
import CoverageRun.Coverage.Tracefile
import CoverageRun.Proofs.Host.Action

namespace CoverageRun.Coverage

/-! ## Pieces and writers -/

namespace Bounded

/-- Pieces taken in order up to the first there is no room for. -/
def takeAll (w : Bounded) : List String → Except Unit Unit × Bounded
  | [] => (.ok (), w)
  | p :: ps => if p.utf8ByteSize ≤ w.room then (w.take p).takeAll ps else (.error (), w)

theorem takeAll_append (qs : List String) : ∀ (ps : List String) (w : Bounded),
    w.takeAll (ps ++ qs) =
      match w.takeAll ps with
      | (.ok _, w') => w'.takeAll qs
      | (.error e, w') => (.error e, w')
  | [], _ => rfl
  | p :: ps, w => by
    simp only [List.cons_append, takeAll]
    split
    · exact takeAll_append qs ps (w.take p)
    · rfl

/-- Pieces that there is room for are taken, all of them. -/
theorem takeAll_of_le : ∀ {ps : List String} {w : Bounded},
    (String.join ps).utf8ByteSize ≤ w.room →
      ∃ w', w.takeAll ps = (.ok (), w') ∧ w'.taken = w.taken ++ String.join ps
  | [], w, _ => ⟨w, rfl, by simp⟩
  | p :: ps, w, h => by
    rw [String.join_cons, String.utf8ByteSize_append] at h
    have hp : p.utf8ByteSize ≤ w.room := by omega
    have hrest : (String.join ps).utf8ByteSize ≤ (w.take p).room := by simp only [take]; omega
    obtain ⟨w', hw', htaken⟩ := takeAll_of_le hrest
    refine ⟨w', by rw [takeAll, if_pos hp, hw'], ?_⟩
    rw [htaken, String.join_cons, ← String.append_assoc]
    rfl

/-- Of pieces that there is no room for, some are taken, and the next one has no room. -/
theorem takeAll_of_lt : ∀ {ps : List String} {w : Bounded},
    w.room < (String.join ps).utf8ByteSize →
      ∃ accepted refused rest w', ps = accepted ++ refused :: rest ∧
        w.takeAll ps = (.error (), w') ∧ w'.taken = w.taken ++ String.join accepted ∧
        (String.join accepted).utf8ByteSize ≤ w.room ∧
        w.room < (String.join accepted).utf8ByteSize + refused.utf8ByteSize
  | [], w, h => by simp at h
  | p :: ps, w, h => by
    rw [String.join_cons, String.utf8ByteSize_append] at h
    by_cases hp : p.utf8ByteSize ≤ w.room
    · have hrest : (w.take p).room < (String.join ps).utf8ByteSize := by simp only [take]; omega
      obtain ⟨accepted, refused, rest, w', rfl, hw', htaken, hle, hlt⟩ := takeAll_of_lt hrest
      simp only [take] at hle hlt htaken
      refine ⟨p :: accepted, refused, rest, w', rfl, by rw [takeAll, if_pos hp, hw'], ?_, ?_, ?_⟩
      · rw [htaken, String.join_cons, String.append_assoc]
      · rw [String.join_cons, String.utf8ByteSize_append]
        omega
      · rw [String.join_cons, String.utf8ByteSize_append]
        omega
    · exact ⟨[], p, ps, w, rfl, by rw [takeAll, if_neg hp], by simp, by simp, by simpa using hp⟩

end Bounded

/-! ## Work that writes pieces -/

namespace Writing

/-- Work that writes certain pieces and does nothing else: it goes on as long as they are taken and
ends with the first that is refused. -/
def Writes (work : Writing Unit) (ps : List String) : Prop :=
  ∀ w, StateT.run (ExceptT.run work) w = w.takeAll ps

theorem writes_pure : Writes (pure ()) [] := fun _ => rfl

theorem writes_piece (p : String) : Writes (piece p) [p] := by
  intro w
  unfold piece
  rw [run_bind]
  show StateT.run (ExceptT.run (if p.utf8ByteSize ≤ w.room then _ else _)) w = _
  by_cases h : p.utf8ByteSize ≤ w.room
  · rw [if_pos h, Bounded.takeAll, if_pos h]
    rfl
  · rw [if_neg h, Bounded.takeAll, if_neg h]
    rfl

/-- What comes after refused pieces is not written. -/
theorem Writes.append {work work' : Writing Unit} {ps qs : List String} (h : Writes work ps)
    (h' : Writes work' qs) : Writes (do work; work') (ps ++ qs) := by
  intro w
  rw [run_bind, h w, Bounded.takeAll_append]
  rcases w.takeAll ps with ⟨_ | _, w'⟩
  · rfl
  · exact h' w'

theorem Writes.forM {α : Type} {f : α → Writing Unit} {pieces : α → List String}
    (h : ∀ x, Writes (f x) (pieces x)) : ∀ xs : List α, Writes (xs.forM f) (xs.flatMap pieces)
  | [] => writes_pure
  | x :: xs => (h x).append (Writes.forM h xs)

end Writing

open Writing

theorem Statement.writes_emit (s : Statement) : Writes s.emit s.pieces := by
  have hpieces : s.pieces = s.pieces.flatMap fun p => [p] := by simp
  rw [hpieces]
  exact Writes.forM writes_piece s.pieces

theorem FileRecord.writes_emit (path : Path) (r : FileRecord) :
    Writes (r.emit path) ((r.statements path).flatMap Statement.pieces) := by
  have hlist : ∀ {α : Type} (xs : List α) (f : α → Statement),
      Writes (xs.forM fun x => (f x).emit) ((xs.map f).flatMap Statement.pieces) := by
    intro α xs f
    rw [List.flatMap_map]
    exact Writes.forM (fun x => (f x).writes_emit) xs
  have hwrites := (Statement.remark "TN" "").writes_emit.append <|
    (Statement.source path).writes_emit.append <|
    (hlist r.functionsByLine fun f => .functionLine f.2.line f.1).append <|
    (hlist r.functionsByLine fun f => .functionHits f.2.hits f.1).append <|
    (Statement.total "FNF" r.counts.functionsFound).writes_emit.append <|
    (Statement.total "FNH" r.counts.functionsHit).writes_emit.append <|
    (hlist r.branches.entries fun b => .branchTaken b.1 b.2).append <|
    (Statement.total "BRF" r.counts.branchesFound).writes_emit.append <|
    (Statement.total "BRH" r.counts.branchesHit).writes_emit.append <|
    (hlist r.lines.entries fun l => .lineHits l.1 l.2).append <|
    (Statement.total "LF" r.counts.linesFound).writes_emit.append <|
    (Statement.total "LH" r.counts.linesHit).writes_emit.append Statement.finish.writes_emit
  simp only [statements, List.flatMap_append, List.flatMap_cons, List.flatMap_nil,
    List.append_assoc, List.append_nil, List.cons_append, List.nil_append]
  exact hwrites

namespace Report

/-- The loops write the pieces of the report. -/
theorem writes_pieces (r : Report) :
    Writes (r.files.entries.forM fun e => e.2.emit e.1) r.pieces := by
  rw [pieces, statements, List.flatMap_assoc]
  exact Writes.forM (fun e => e.2.writes_emit e.1) r.files.entries

theorem writeTo_eq (r : Report) (room : Nat) : r.writeTo room =
    (((Bounded.mk "" room).takeAll r.pieces).1.isOk,
      ((Bounded.mk "" room).takeAll r.pieces).2.taken) := by
  unfold writeTo
  simp only [r.writes_pieces ⟨"", room⟩]

/-- A report is written into `room` octets exactly if its text has no more of them. What is written
is a beginning of the text, the whole of it if the report is written; and if it is not, some
leading pieces of the report, of which the next one would have gone over the limit. -/
theorem writeTo_bounded (r : Report) (room : Nat) :
    ((r.writeTo room).1 = true ↔ r.render.utf8ByteSize ≤ room) ∧
    (r.writeTo room).2.toList <+: r.render.toList ∧
    (r.writeTo room).2.utf8ByteSize ≤ room ∧
    ((r.writeTo room).1 = true → (r.writeTo room).2 = r.render) ∧
    ((r.writeTo room).1 = false → ∃ accepted refused rest, r.pieces = accepted ++ refused :: rest ∧
      (r.writeTo room).2 = String.join accepted ∧
      room < (String.join accepted).utf8ByteSize + refused.utf8ByteSize) := by
  rw [writeTo_eq]
  by_cases hfits : r.render.utf8ByteSize ≤ room
  · obtain ⟨w', hw', htaken⟩ := Bounded.takeAll_of_le (w := ⟨"", room⟩) hfits
    have hall : w'.taken = r.render := htaken.trans (String.empty_append ..)
    simp only [hw', hall]
    exact ⟨iff_of_true rfl hfits, List.prefix_refl _, hfits, fun _ => trivial, nofun⟩
  · obtain ⟨accepted, refused, rest, w', hpieces, hw', htaken, hle, hlt⟩ :=
      Bounded.takeAll_of_lt (w := ⟨"", room⟩) (Nat.lt_of_not_le hfits)
    have hpart : w'.taken = String.join accepted := htaken.trans (String.empty_append ..)
    have hbeginning : (String.join accepted).toList <+: r.render.toList := by
      rw [render, hpieces]
      simp [String.toList_join]
    simp only [hw', hpart]
    exact ⟨iff_of_false nofun hfits, hbeginning, hle, nofun, fun _ =>
      ⟨accepted, refused, rest, hpieces, rfl, hlt⟩⟩

end Report

end CoverageRun.Coverage
