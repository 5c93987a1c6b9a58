/-
Reading back what was written: numbers of 64 bits, lists, maps and values that may be missing come
back from the trees of their texts, and so do the fields of records.
-/
import CoverageRun.Proofs.Json.Variation
import CoverageRun.Proofs.Store.OrderedMap

namespace CoverageRun.Json

open Numeral

/-- Everything is read back from both of its texts. -/
def ReadsBack {α : Type} (write : α → Value) (read : Node → Reading α) : Prop :=
  ∀ a, readDocument read (write a).compact = .ok a ∧ readDocument read (write a).pretty = .ok a

theorem ReadsBack.of_node {α : Type} {write : α → Value} {read : Node → Reading α}
    (h : ∀ a, read (write a).datum.node = .ok a) : ReadsBack write read := fun a =>
  ⟨(readDocument_of_spelledBy (write a).spelledBy_compact read).trans (h a),
    (readDocument_of_spelledBy (write a).spelledBy_pretty read).trans (h a)⟩

/-! ## Whole numbers -/

theorem le_valueFrom (n : Nat) : ∀ digits : List Char, n ≤ valueFrom n digits
  | [] => le_rfl
  | c :: r => (show n ≤ 10 * n + digitValue c by omega).trans (le_valueFrom _ r)

/-- Digits of a number that 64 bits hold are all read. -/
theorem leadingWord_eq : ∀ {digits : List Char} {n : Nat}, valueFrom n digits < UInt64.size →
    leadingWord n digits = (valueFrom n digits, 0)
  | [], _, _ => rfl
  | c :: r, n, h => by
    have hlonger : 10 * n + digitValue c < UInt64.size := (le_valueFrom _ r).trans_lt h
    rw [leadingWord, if_pos hlonger]
    exact leadingWord_eq h

theorem node_ofInt {i : Int} (h : i.natAbs < UInt64.size) : (Literal.ofInt i).node = .integer i := by
  have hvalue : value (write i.natAbs) = i.natAbs := value_write _
  have hword : leadingWord 0 (write i.natAbs) = (i.natAbs, 0) := by
    rw [leadingWord_eq (by rw [← value, hvalue]; exact h), ← value, hvalue]
  unfold Literal.node numberNode
  simp only [Literal.ofInt, hword, hvalue]
  rcases lt_or_ge i 0 with hi | hi
  · have hne : i.natAbs ≠ 0 := by omega
    have hvalue : -(i.natAbs : Int) = i := by omega
    simp only [hi, hne, hvalue]
    simp
  · simp [hi, not_lt.2 hi]

theorem node_word (n : UInt64) : (Value.word n).datum.node = .integer n.toNat :=
  node_ofInt n.toNat_lt_size

@[simp]
theorem readWord_word (n : UInt64) : (Value.word n).datum.node.readWord = .ok n := by
  rw [node_word]
  simp [Node.readWord, Node.readBelow, n.toNat_lt_size, Except.map]

/-! ## Texts, lists, maps and values that may be missing -/

@[simp]
theorem readText_text (s : String) : (Node.text s).readText = .ok s := rfl

@[simp]
theorem readTexts_texts (ss : List String) : (Value.texts ss).datum.node.readTexts = .ok ss := by
  rw [Value.texts, Value.datum, Datum.node, Node.readTexts, Node.readList]
  induction ss with
  | nil => rfl
  | cons s r ih =>
    rw [List.map_cons, Value.itemData, Datum.itemNodes, Items.readAll, ih]
    rfl

theorem readAll_texts : ∀ entries : List (String × String),
    (Datum.memberNodes (Value.memberData (entries.map fun e => (e.1, .text e.2)))).readAll
      Node.readText = .ok entries
  | [] => rfl
  | e :: r => by
    rw [List.map_cons, Value.memberData, Datum.memberNodes, Members.readAll, readAll_texts r]
    rfl

/-- An object of texts is read as the map it was written from. -/
@[simp]
theorem readMap_entries (m : Store.OrderedMap String String) :
    Node.readMap Node.readText (.object (Datum.memberNodes (Value.memberData
      (m.entries.map fun e => (e.1, .text e.2))))) = .ok m := by
  rw [Node.readMap, readAll_texts]
  exact congrArg Except.ok m.ofList_entries

theorem readOptional_optional {α : Type} {write : α → Value} {read : Node → Reading α}
    (hread : ∀ a, read (write a).datum.node = .ok a) (hnull : ∀ a, (write a).datum.node ≠ .null)
    (o : Option α) : (Value.optional write o).datum.node.readOptional read = .ok o := by
  cases o with
  | none => rfl
  | some a =>
    rw [Value.optional, Node.readOptional.eq_2 _ _ (hnull a), hread]
    rfl

@[simp]
theorem readOptional_text (o : Option String) :
    (Value.optional .text o).datum.node.readOptional Node.readText = .ok o :=
  readOptional_optional (fun _ => rfl) nofun o

@[simp]
theorem readOptional_word (o : Option UInt64) :
    (Value.optional .word o).datum.node.readOptional Node.readWord = .ok o :=
  readOptional_optional readWord_word
    (fun n h => by rw [node_word] at h; cases h) o

/-! ## Fields -/

section Fields

variable {R : Type} {name : String} {absence : Absence} {blend : (String → Bool) → R}
  {kept : List String → Bool}

section Single

variable {α : Type} {read : Node → Reading α} {set : R → α → R} {v : Value} {a : α}

/-- A field whose value is itself varied. -/
theorem Field.restores_of_varied
    (hread : ∀ d, Varied (fun path => kept (name :: path)) v d → read d.node = .ok a)
    (hset : ∀ filled, set (blend filled) a = blend fun n => n == name || filled n) :
    (Field.of name absence read set).Restores blend kept (name, v) := by
  refine ⟨rfl, fun d hd filled => ?_⟩
  rw [← hset filled]
  exact congrArg (Except.map (set (blend filled))) (hread d hd)

/-- A field whose value has no members. -/
theorem Field.restores (hv : ∀ members, v ≠ .object members) (hread : read v.datum.node = .ok a)
    (hset : ∀ filled, set (blend filled) a = blend fun n => n == name || filled n) :
    (Field.of name absence read set).Restores blend kept (name, v) :=
  restores_of_varied (fun _ hd => hd.eq_datum hv ▸ hread) hset

end Single

theorem Field.restores_text {set : R → String → R} {s : String}
    (hset : ∀ filled, set (blend filled) s = blend fun n => n == name || filled n) :
    (Field.of name absence (·.readText) set).Restores blend kept (name, .text s) :=
  restores (fun _ h => by cases h) rfl hset

theorem Field.restores_bool {set : R → Bool → R} {b : Bool}
    (hset : ∀ filled, set (blend filled) b = blend fun n => n == name || filled n) :
    (Field.of name absence (·.readBool) set).Restores blend kept (name, .bool b) :=
  restores (fun _ h => by cases h) rfl hset

theorem Field.restores_word {set : R → UInt64 → R} {n : UInt64}
    (hset : ∀ filled, set (blend filled) n = blend fun m => m == name || filled m) :
    (Field.of name absence (·.readWord) set).Restores blend kept (name, .word n) :=
  restores (fun _ h => by cases h) (readWord_word n) hset

theorem Field.restores_texts {set : R → List String → R} {ss : List String}
    (hset : ∀ filled, set (blend filled) ss = blend fun n => n == name || filled n) :
    (Field.of name absence (·.readTexts) set).Restores blend kept (name, .texts ss) :=
  restores (fun _ h => by cases h) (readTexts_texts ss) hset

theorem Field.restores_optional {β : Type} {write : β → Value} {read : Node → Reading β}
    {set : R → Option β → R} {o : Option β} (hleaf : ∀ b members, write b ≠ .object members)
    (hread : (Value.optional write o).datum.node.readOptional read = .ok o)
    (hset : ∀ filled, set (blend filled) o = blend fun n => n == name || filled n) :
    (Field.of name absence (·.readOptional read) set).Restores blend kept
      (name, .optional write o) :=
  restores (by cases o with
    | none => intro _ h; cases h
    | some b => exact hleaf b) hread hset

end Fields

end CoverageRun.Json
