/-
Rendered reports are canonical. The text of a report is the text of its files in path order; a file
lists its functions by line and name, their calls in the same order, its branches and its lines,
each list strictly ascending, and the totals it states are the numbers of the entries it lists. The
summary has the same totals in the same order, and whatever part of the files is kept, the totals of
that part and of the rest make those of the whole.
-/
import CoverageRun.Proofs.Coverage.RoundTrip
import Mathlib.Algebra.Order.BigOperators.Group.List

namespace CoverageRun.Coverage

open Statement (number)

/-! ## Listings -/

/-- What the text of one file says: the entries it lists and the totals it states. -/
structure FileListing where
  path : Path
  functions : List (UInt32 × String)
  calls : List (UInt64 × String)
  branches : List (BranchId × Option UInt64)
  lines : List (UInt32 × UInt64)
  totals : Counts

/-- A line of a tag and its fields. -/
def taggedLine (tag : String) (fields : List String) : String :=
  tag ++ ":" ++ Text.joinText "," fields ++ "\n"

/-- A listing line by line. -/
def FileListing.text (b : FileListing) : String := String.join <|
  [taggedLine "TN" [""], taggedLine "SF" [b.path.text]] ++
  b.functions.map (fun f => taggedLine "FN" [number f.1.toNat, f.2]) ++
  b.calls.map (fun f => taggedLine "FNDA" [number f.1.toNat, f.2]) ++
  [taggedLine "FNF" [number b.totals.functionsFound],
    taggedLine "FNH" [number b.totals.functionsHit]] ++
  b.branches.map (fun e => taggedLine "BRDA" [number e.1.line.toNat, number e.1.block.toNat,
    number e.1.branch.toNat, (e.2.map fun n => number n.toNat).getD "-"]) ++
  [taggedLine "BRF" [number b.totals.branchesFound],
    taggedLine "BRH" [number b.totals.branchesHit]] ++
  b.lines.map (fun e => taggedLine "DA" [number e.1.toNat, number e.2.toNat]) ++
  [taggedLine "LF" [number b.totals.linesFound], taggedLine "LH" [number b.totals.linesHit],
    "end_of_record\n"]

/-- A listing whose entries are in order and whose totals are those of its entries. -/
structure FileListing.Canonical (b : FileListing) : Prop where
  functions : b.functions.Pairwise fun f g => (compare f.1 g.1).then (compare f.2 g.2) = .lt
  calls : b.calls.map Prod.snd = b.functions.map Prod.snd
  branches : b.branches.Pairwise fun e f => compare e.1 f.1 = .lt
  lines : b.lines.Pairwise fun e f => e.1 < f.1
  functionsFound : b.totals.functionsFound = b.functions.length
  functionsHit : b.totals.functionsHit = (b.calls.filter fun f => 0 < f.1).length
  branchesFound : b.totals.branchesFound = b.branches.length
  branchesHit : b.totals.branchesHit =
    (b.branches.filter fun e => ∃ n, e.2 = some n ∧ 0 < n).length
  linesFound : b.totals.linesFound = b.lines.length
  linesHit : b.totals.linesHit = (b.lines.filter fun e => 0 < e.2).length


theorem toList_taggedLine (tag : String) (fields : List String) : (taggedLine tag fields).toList =
    tag.toList ++ ':' :: (Text.join [','] (fields.map String.toList) ++ ['\n']) := by
  simp [taggedLine, Text.joinText]

namespace FileRecord

/-- The listing of a file. -/
def listing (path : Path) (r : FileRecord) : FileListing where
  path := path
  functions := r.functionsByLine.map fun f => (f.2.line, f.1)
  calls := r.functionsByLine.map fun f => (f.2.hits, f.1)
  branches := r.branches.entries
  lines := r.lines.entries
  totals := r.counts

theorem functionsByLine_ascending (r : FileRecord) : r.functionsByLine.Pairwise fun f g =>
    (compare f.2.line g.2.line).then (compare f.1 g.1) = .lt := by
  let order : String × FunctionRecord → String × FunctionRecord → Ordering :=
    compareLex (compareOn fun f => f.2.line) (compareOn Prod.fst)
  have hsorted : r.functionsByLine.Pairwise fun f g => (order f g).isLE = true := by
    refine List.pairwise_mergeSort (fun a b c => Std.TransCmp.isLE_trans) (fun a b => ?_) _
    have hswap : order b a = (order a b).swap := Std.OrientedCmp.eq_swap
    rw [hswap]
    cases order a b <;> rfl
  have hdistinct : r.functionsByLine.Pairwise fun f g => compare f.1 g.1 ≠ .eq :=
    ((functionsByLine_perm r).pairwise_iff fun h e => h (Std.OrientedCmp.eq_symm e)).2
      r.functions.distinct
  refine (hsorted.and hdistinct).imp fun {f g} ⟨hle, hne⟩ => ?_
  cases ho : order f g with
  | lt => exact ho
  | eq => exact absurd (Ordering.then_eq_eq.1 ho).2 hne
  | gt => rw [ho] at hle; cases hle

theorem canonical_listing (path : Path) (r : FileRecord) : (r.listing path).Canonical := by
  constructor
  case functions => exact List.pairwise_map.2 r.functionsByLine_ascending
  case calls => simp [listing]
  case branches => exact r.branches.ascending
  case lines => exact r.lines.ascending.imp fun h => Std.compare_eq_lt.1 h
  case functionsFound =>
    simp [listing, counts, (functionsByLine_perm r).length_eq, Store.OrderedMap.size]
  case functionsHit =>
    have hcalls : ((r.listing path).calls.filter fun f => 0 < f.1).length =
        (r.functionsByLine.filter fun f => 0 < f.2.hits).length := by
      simp [listing, List.filter_map, Function.comp_def]
    rw [hcalls]
    exact (((functionsByLine_perm r).filter _).length_eq).symm
  case branchesFound => rfl
  case branchesHit =>
    refine congrArg List.length (List.filter_congr fun e _ => ?_)
    cases h : e.2 <;> simp
  case linesFound => rfl
  case linesHit => rfl

theorem toList_text_listing (path : Path) (r : FileRecord) : (r.listing path).text.toList =
    ((r.statements path).map Statement.line).flatMap (· ++ ['\n']) := by
  have htaken : ∀ taken : Option UInt64,
      ((taken.map fun n => number n.toNat).getD "-").toList = Statement.takenText taken := by
    rintro (_ | n)
    · rfl
    · exact Statement.toList_number n.toNat
  simp [FileListing.text, listing, statements, Statement.line, Statement.total, toList_taggedLine,
    String.toList_join, List.flatMap_append, List.flatMap_map, Text.join, Statement.toList_number,
    htaken]

end FileRecord

/-! ## Sums of counts -/

namespace Counts

/-- Nothing is hit that is not there. -/
structure Fits (c : Counts) : Prop where
  lines : c.linesHit ≤ c.linesFound
  branches : c.branchesHit ≤ c.branchesFound
  functions : c.functionsHit ≤ c.functionsFound

/-- The numbers that counts consist of. -/
def numbers : List (Counts → Nat) :=
  [linesFound, linesHit, branchesFound, branchesHit, functionsFound, functionsHit]

/-- Counts that are the sum of others, number by number. -/
def IsSum (c : Counts) (cs : List Counts) : Prop := ∀ n ∈ numbers, n c = (cs.map n).sum

variable {a b : Counts} {as bs : List Counts}

theorem ext_numbers (h : ∀ n ∈ numbers, n a = n b) : a = b := by
  cases a
  cases b
  simpa [numbers] using h

theorem number_add (a b : Counts) : ∀ n ∈ numbers, n (a.add b) = n a + n b := by simp [numbers, add]

theorem isSum_zero : zero.IsSum [] := by simp [IsSum, numbers, zero]

theorem isSum_single (c : Counts) : c.IsSum [c] := by simp [IsSum]

theorem IsSum.append (ha : a.IsSum as) (hb : b.IsSum bs) : (a.add b).IsSum (as ++ bs) := by
  intro n hn
  rw [number_add a b n hn, ha n hn, hb n hn, List.map_append, List.sum_append]

theorem IsSum.perm (ha : a.IsSum as) (hp : as.Perm bs) : a.IsSum bs := fun n hn =>
  (ha n hn).trans (hp.map n).sum_eq

/-- Counts have one sum. -/
theorem IsSum.unique (ha : a.IsSum as) (hb : b.IsSum as) : a = b :=
  ext_numbers fun n hn => (ha n hn).trans (hb n hn).symm

theorem isSum_foldl_add : ∀ {cs bs : List Counts} {a : Counts}, a.IsSum bs →
    (cs.foldl add a).IsSum (bs ++ cs)
  | [], bs, a, ha => by simpa using ha
  | c :: cs, bs, a, ha => by
    have hrest : (cs.foldl add (a.add c)).IsSum (bs ++ [c] ++ cs) :=
      isSum_foldl_add (ha.append (isSum_single c))
    simpa using hrest

theorem IsSum.fits (ha : a.IsSum as) (h : ∀ c ∈ as, c.Fits) : a.Fits := by
  have hle : ∀ m ∈ numbers, ∀ n ∈ numbers, (∀ c ∈ as, m c ≤ n c) → m a ≤ n a := by
    intro m hm n hn hle
    rw [ha m hm, ha n hn]
    exact List.sum_le_sum hle
  constructor
  case lines => exact hle _ (by simp [numbers]) _ (by simp [numbers]) fun c hc => (h c hc).lines
  case branches =>
    exact hle _ (by simp [numbers]) _ (by simp [numbers]) fun c hc => (h c hc).branches
  case functions =>
    exact hle _ (by simp [numbers]) _ (by simp [numbers]) fun c hc => (h c hc).functions

end Counts

theorem FileRecord.fits_counts (r : FileRecord) : r.counts.Fits :=
  ⟨List.length_filter_le .., List.length_filter_le .., List.length_filter_le ..⟩

namespace Report

/-! ## Canonical texts -/

/-- The listings of a report, one for each file. -/
def listings (r : Report) : List FileListing := r.files.entries.map fun e => e.2.listing e.1

theorem isSum_total (r : Report) :
    r.summary.total.IsSum (r.files.entries.map fun e => e.2.counts) := by
  have hfold : ((r.files.entries.map fun e => e.2.counts).foldl Counts.add .zero).IsSum
      ([] ++ r.files.entries.map fun e => e.2.counts) := Counts.isSum_foldl_add Counts.isSum_zero
  simpa [summary, Summary.ofFiles, List.foldl_map] using hfold

theorem render_listings (r : Report) :
    r.render = String.join (r.listings.map FileListing.text) := by
  apply String.toList_inj.1
  simp [toList_render, String.toList_join, listings, List.flatMap_map,
    FileRecord.toList_text_listing,
    statements, List.map_flatMap, List.flatMap_assoc]

theorem add_total_retain (r : Report) (keep : Path → Bool) :
    (r.retain keep).summary.total.add (r.retain fun p => !keep p).summary.total =
      r.summary.total := by
  have hparts := (r.retain keep).isSum_total.append (r.retain fun p => !keep p).isSum_total
  have hperm := (List.filter_append_perm (fun e => keep e.1) r.files.entries).map
    fun e => e.2.counts
  rw [List.map_append] at hperm
  exact (hparts.perm hperm).unique r.isSum_total

/-- A report is written file by file, in path order, the listing of each with its entries in order
and with totals that are those of its entries. The summary has a row for each listing with its
totals, of which none has more hit than found, and they add up to the total; so do the totals of the
files that pass a test and of those that do not. -/
theorem render_canonical (r : Report) :
    r.render = String.join (r.listings.map FileListing.text) ∧
    r.listings.Pairwise (fun a b => compare a.path b.path = .lt) ∧
    (∀ b ∈ r.listings, b.Canonical) ∧
    r.summary.files = r.listings.map (fun b => (b.path, b.totals)) ∧
    (∀ row ∈ r.summary.files, row.2.Fits) ∧ r.summary.total.Fits ∧
    r.summary.total.IsSum (r.summary.files.map Prod.snd) ∧
    ∀ keep : Path → Bool,
      (r.retain keep).summary.total.add (r.retain fun p => !keep p).summary.total =
        r.summary.total := by
  have hrows : r.summary.files.map Prod.snd = r.files.entries.map fun e => e.2.counts := by
    simp [summary, Summary.ofFiles]
  refine ⟨r.render_listings, ?_, ?_, ?_, ?_, ?_, ?_, r.add_total_retain⟩
  · exact List.pairwise_map.2 r.files.ascending
  · intro b hb
    obtain ⟨e, -, rfl⟩ := List.mem_map.1 hb
    exact FileRecord.canonical_listing e.1 e.2
  · simp [summary, Summary.ofFiles, listings, FileRecord.listing]
  · intro row hrow
    obtain ⟨e, -, rfl⟩ := List.mem_map.1 hrow
    exact e.2.fits_counts
  · refine r.isSum_total.fits fun c hc => ?_
    obtain ⟨e, -, rfl⟩ := List.mem_map.1 hc
    exact e.2.fits_counts
  · rw [hrows]
    exact r.isSum_total

end Report

end CoverageRun.Coverage
