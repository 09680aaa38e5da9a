import TapeMachine.Json.Chunks
import TapeMachine.Proofs.JsonRoundTrip

/-!
# Values that are written to their end

A storable value has no chunk that cannot be written, and its chunks make up its text. An integer with
too many digits and arrays that are nested too deep are not written to their end.

## Main results

- `Storable.writes`: all chunks of a storable value are written
- `Storable.of_stop?`: what is written to its end is within the bounds of what is read
- `stop?_long`, `stop?_nested`: why those values are not
-/

namespace TapeMachine.Json

variable {layout : Layout} {k depth : Nat} {v : Json} {a b : List Chunk} {s t : List Char}

/-! ## Chunks -/

/-- Chunks that make up a text. -/
def IsWhole (cs : List Chunk) (text : List Char) : Prop :=
  (∀ c ∈ cs, c.error? = none) ∧ cs.flatMap Chunk.chars = text

theorem IsWhole.nil : IsWhole [] [] := ⟨nofun, rfl⟩

theorem IsWhole.cons (s : List Char) (h : IsWhole b t) : IsWhole (.ok s :: b) (s ++ t) :=
  ⟨List.forall_mem_cons.2 ⟨rfl, h.1⟩, by rw [List.flatMap_cons, h.2]; rfl⟩

theorem IsWhole.append (ha : IsWhole a s) (hb : IsWhole b t) : IsWhole (a ++ b) (s ++ t) :=
  ⟨List.forall_mem_append.2 ⟨ha.1, hb.1⟩, by rw [List.flatMap_append, ha.2, hb.2]⟩

theorem isWhole_singleton (s : List Char) : IsWhole [.ok s] s := by
  have h := IsWhole.nil.cons s
  rw [List.append_nil] at h
  exact h

theorem IsWhole.stop? (h : IsWhole a s) : stop? a = none := List.findSome?_eq_none_iff.2 h.1

theorem IsWhole.written (h : IsWhole a s) : written a = s := by
  have hall : ∀ c ∈ a, c.error?.isNone = true := fun c hc =>
    Option.isNone_iff_eq_none.2 (h.1 c hc)
  have htake := @List.takeWhile_append_of_pos _ _ a [] hall
  rw [List.takeWhile_nil, List.append_nil] at htake
  rw [Json.written, htake, h.2]

/-- What is not written to its end is not so between other chunks. -/
theorem stop?_append {e : WriteError} (h : stop? a = some e) {front : List Chunk}
    (hfront : stop? front = none) (b : List Chunk) : stop? (front ++ (a ++ b)) = some e := by
  unfold stop? at h hfront ⊢
  rw [List.findSome?_append, hfront, List.findSome?_append, h]
  rfl

/-! ## Values -/

attribute [local simp] chunks itemChunks fieldChunks chars itemChars fieldChars

/-- All chunks of a value are written, whatever stands in front of it. -/
def Writes (layout : Layout) (depth : Nat) (v : Json) : Prop :=
  ∀ k front, IsWhole (chunks layout k depth front v) (front ++ chars layout k v)

theorem isWhole_itemChunks {items : List Json} (h : ∀ item ∈ items, Writes layout depth item)
    (k : Nat) : IsWhole (itemChunks layout k depth items) (itemChars layout k items) := by
  induction items with
  | nil => simpa using IsWhole.nil
  | cons item items ih =>
    obtain ⟨hitem, hitems⟩ := List.forall_mem_cons.1 h
    rw [itemChunks, itemChars]
    exact (hitem k _).append (ih hitems)

theorem isWhole_field (name : Text.Loose) (h : Writes layout depth v) (k : Nat)
    (front : List Char) :
    IsWhole (.ok front :: .ok (stringChars name ++ [':', ' ']) :: chunks layout k depth [] v)
      (front ++ stringChars name ++ [':', ' '] ++ chars layout k v) := by
  have hfield := ((h k []).cons (stringChars name ++ [':', ' '])).cons front
  simp only [List.nil_append, List.append_assoc] at hfield ⊢
  exact hfield

theorem isWhole_fieldChunks {fields : Fields} (h : ∀ f ∈ fields, Writes layout depth f.2)
    (k : Nat) : IsWhole (fieldChunks layout k depth fields) (fieldChars layout k fields) := by
  induction fields with
  | nil => simpa using IsWhole.nil
  | cons f fields ih =>
    obtain ⟨hfield, hfields⟩ := List.forall_mem_cons.1 h
    rw [fieldChunks, fieldChars]
    exact (isWhole_field f.1 hfield k _).append (ih hfields)

theorem Writes.arr {items : List Json} (h : ∀ item ∈ items, Writes layout depth item) :
    Writes layout (depth + 1) (.arr items) := by
  intro k front
  cases items with
  | nil =>
    rw [chunks, chars]
    exact (isWhole_singleton _).cons front
  | cons item items =>
    obtain ⟨hitem, hitems⟩ := List.forall_mem_cons.1 h
    have hall := (hitem (k + 1) ('[' :: layout.newline (k + 1))).append
      (isWhole_itemChunks hitems (k + 1))
    rw [chunks, chars, if_neg (Nat.succ_ne_zero depth), Nat.add_sub_cancel]
    have hclosed := (hall.append (isWhole_singleton (layout.newline k ++ [']']))).cons front
    rw [← List.append_assoc _ (layout.newline k)] at hclosed
    exact hclosed

theorem Writes.obj {fields : Fields} (h : ∀ f ∈ fields, Writes layout depth f.2) :
    Writes layout (depth + 1) (.obj fields) := by
  intro k front
  cases fields with
  | nil =>
    rw [chunks, chars]
    exact (isWhole_singleton _).cons front
  | cons f fields =>
    obtain ⟨hfield, hfields⟩ := List.forall_mem_cons.1 h
    have hall := (isWhole_field f.1 hfield (k + 1) ('\x7b' :: layout.newline (k + 1))).append
      (isWhole_fieldChunks hfields (k + 1))
    rw [chunks, chars, if_neg (Nat.succ_ne_zero depth), Nat.add_sub_cancel]
    have hclosed := (hall.append (isWhole_singleton (layout.newline k ++ ['\x7d']))).cons front
    rw [← List.append_assoc _ (layout.newline k)] at hclosed
    exact hclosed

/-- All chunks of a storable value are written. -/
theorem Storable.writes (h : Storable Text.Integer.digitLimit depth v) (layout : Layout) :
    Writes layout depth v := by
  induction h with
  | null | bool b | real canonical | str settled =>
    intro k front
    rw [chunks]
    exact isWhole_singleton _
  | int digits =>
    intro k front
    rw [chunks, if_pos (Text.Integer.isWritable_iff_digits.2 digits)]
    exact isWhole_singleton _
  | arr storable ih => exact .arr ih
  | obj distinct names storable ih => exact .obj ih

/-! ## What is not written -/

theorem stop?_append_eq_none (h : stop? (a ++ b) = none) : stop? a = none ∧ stop? b = none := by
  unfold stop? at h ⊢
  rwa [List.findSome?_append, Option.or_eq_none_iff] at h

theorem stop?_of_itemChunks {items : List Json} (h : stop? (itemChunks layout k depth items) = none) :
    ∀ item ∈ items, stop? (chunks layout k depth (layout.separator k) item) = none := by
  induction items with
  | nil => nofun
  | cons item items ih =>
    rw [itemChunks] at h
    obtain ⟨hitem, hitems⟩ := stop?_append_eq_none h
    exact List.forall_mem_cons.2 ⟨hitem, ih hitems⟩

theorem stop?_of_fieldChunks {fields : Fields}
    (h : stop? (fieldChunks layout k depth fields) = none) :
    ∀ f ∈ fields, stop? (chunks layout k depth [] f.2) = none := by
  induction fields with
  | nil => nofun
  | cons f fields ih =>
    rw [fieldChunks] at h
    obtain ⟨hfield, hfields⟩ := stop?_append_eq_none h
    exact List.forall_mem_cons.2 ⟨hfield, ih hfields⟩

/-- An array that is written to its end has room for its items, and so are these written. -/
theorem exists_of_stop?_arr {items : List Json} {front : List Char}
    (h : stop? (chunks layout k depth front (.arr items)) = none) :
    ∃ inner, depth = inner + 1 ∧ ∀ item ∈ items, ∃ k front,
      stop? (chunks layout k inner front item) = none := by
  cases depth with
  | zero => cases items <;> rw [chunks] at h <;> contradiction
  | succ inner =>
    refine ⟨inner, rfl, ?_⟩
    cases items with
    | nil => nofun
    | cons item items =>
      rw [chunks, if_neg (Nat.succ_ne_zero inner)] at h
      obtain ⟨hall, -⟩ := stop?_append_eq_none h
      obtain ⟨hitem, hitems⟩ := stop?_append_eq_none hall
      exact List.forall_mem_cons.2 ⟨⟨_, _, hitem⟩, fun i hi => ⟨_, _, stop?_of_itemChunks hitems i hi⟩⟩

/-- It is the same with the fields of an object. -/
theorem exists_of_stop?_obj {fields : Fields} {front : List Char}
    (h : stop? (chunks layout k depth front (.obj fields)) = none) :
    ∃ inner, depth = inner + 1 ∧ ∀ f ∈ fields, ∃ k front,
      stop? (chunks layout k inner front f.2) = none := by
  cases depth with
  | zero => cases fields <;> rw [chunks] at h <;> contradiction
  | succ inner =>
    refine ⟨inner, rfl, ?_⟩
    cases fields with
    | nil => nofun
    | cons f fields =>
      rw [chunks, if_neg (Nat.succ_ne_zero inner)] at h
      obtain ⟨hall, -⟩ := stop?_append_eq_none h
      obtain ⟨hfield, hfields⟩ := stop?_append_eq_none hall
      exact List.forall_mem_cons.2 ⟨⟨_, _, hfield⟩,
        fun g hg => ⟨_, _, stop?_of_fieldChunks hfields g hg⟩⟩

/-- What is written to its end is within the bounds, so it is read back if it is storable at all. -/
theorem Storable.of_stop? {digits deep : Nat} (h : Storable digits deep v) {front : List Char}
    (hstop : stop? (chunks layout k depth front v) = none) :
    Storable Text.Integer.digitLimit depth v := by
  induction h generalizing k depth front with
  | null => exact .null
  | bool b => exact .bool b
  | int digits =>
    rw [chunks] at hstop
    split at hstop
    · rename_i hwritable
      exact .int (Text.Integer.isWritable_iff_digits.1 hwritable)
    · exact absurd hstop (Option.some_ne_none _)
  | real canonical => exact .real canonical
  | str settled => exact .str settled
  | arr storable ih =>
    obtain ⟨inner, rfl, hitems⟩ := exists_of_stop?_arr hstop
    refine .arr fun item hitem => ?_
    obtain ⟨k, front, hwritten⟩ := hitems item hitem
    exact ih item hitem hwritten
  | obj distinct names storable ih =>
    obtain ⟨inner, rfl, hfields⟩ := exists_of_stop?_obj hstop
    refine .obj distinct names fun f hf => ?_
    obtain ⟨k, front, hwritten⟩ := hfields f hf
    exact ih f hf hwritten

theorem stop?_long {n : Int} (h : Text.Integer.isWritable n = false) (front : List Char) :
    stop? (chunks layout k depth front (.int n)) = some (.longInteger ⟨⟩) := by
  rw [chunks, h]
  rfl

/-- Arrays inside each other. -/
def nested : Nat → Json
  | 0 => .arr []
  | n + 1 => .arr [nested n]

theorem stop?_nested {n : Nat} (h : depth ≤ n) (front : List Char) :
    stop? (chunks layout k depth front (nested n)) = some .tooDeep := by
  -- on the arrays: the outermost one takes one of the depth
  induction n generalizing depth k front with
  | zero =>
    obtain rfl : depth = 0 := by omega
    rw [nested, chunks]
    rfl
  | succ n ih =>
    rw [nested, chunks]
    split
    · rfl
    · have hinner := @ih (k + 1) _ (by omega : depth - 1 ≤ n) ('[' :: layout.newline (k + 1))
      rw [List.append_assoc]
      exact stop?_append hinner (rfl : stop? [.ok front] = none) _

end TapeMachine.Json
