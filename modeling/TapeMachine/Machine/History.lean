/-!
# Bounded histories

A history keeps the most recent values that were put into it, up to its capacity if it has one.
`toList` is the view: the values kept, oldest first.

Values that the capacity does not allow any more are forgotten at once, but only swept out when
there are as many of them as values kept. So no operation has to walk through the history each time.
-/

namespace TapeMachine

/-- The most recent values, newest first, and behind them values that are forgotten and were not
swept out yet. No capacity means no bound. -/
structure History (α : Type) where
  capacity : Option Nat
  /-- The values kept, and then the forgotten ones. -/
  recent : List α
  /-- The number of values kept. -/
  size : Nat
  /-- The number of forgotten values. -/
  forgotten : Nat
  length_recent : recent.length = size + forgotten
  deriving DecidableEq

namespace History

variable {α : Type}

/-- The history without values. -/
def empty (capacity : Option Nat) : History α := ⟨capacity, [], 0, 0, rfl⟩

/-- As many values as a capacity allows. -/
def allowed (capacity : Option Nat) (n : Nat) : Nat :=
  match capacity with
  | none => n
  | some c => min n c

theorem allowed_le (capacity : Option Nat) (n : Nat) : allowed capacity n ≤ n :=
  match capacity with
  | none => Nat.le_refl n
  | some c => Nat.min_le_left n c

theorem allowed_mono (capacity : Option Nat) {n k : Nat} (h : n ≤ k) :
    allowed capacity n ≤ allowed capacity k := by
  cases capacity with
  | none => exact h
  | some c =>
    simp only [allowed]
    omega

/-- A place that is allowed among more values is allowed, one nearer, among one value less. -/
theorem lt_allowed_of_succ {capacity : Option Nat} {i n : Nat}
    (h : i + 1 < allowed capacity (n + 1)) : i < allowed capacity n := by
  cases capacity with
  | none =>
    simp only [allowed] at h ⊢
    omega
  | some c =>
    simp only [allowed] at h ⊢
    omega

/-- A place is allowed if it is so among other values and there are values behind it. -/
theorem lt_allowed_succ {capacity : Option Nat} {i n k : Nat} (h : i < allowed capacity k)
    (hn : i ≤ n) : i < allowed capacity (n + 1) := by
  cases capacity with
  | none =>
    simp only [allowed]
    omega
  | some c =>
    simp only [allowed] at h ⊢
    omega

/-- The values kept, newest first. -/
def kept (h : History α) : List α := h.recent.take h.size

/-- The values, oldest first. -/
def toList (h : History α) : List α := h.kept.reverse

/-- The history with a capacity and values, of which so many are kept as it allows. -/
def bounded (capacity : Option Nat) (h : History α) : History α :=
  if h.size + h.forgotten ≤ 2 * allowed capacity h.size then
    ⟨capacity, h.recent, allowed capacity h.size, h.size + h.forgotten - allowed capacity h.size, by
      have := allowed_le capacity h.size
      rw [h.length_recent]; omega⟩
  else
    ⟨capacity, h.recent.take (allowed capacity h.size), allowed capacity h.size, 0, by
      have := allowed_le capacity h.size
      rw [List.length_take, h.length_recent]; omega⟩

/-- The history with one more value, whatever its capacity. -/
def extended (h : History α) (a : α) : History α :=
  ⟨h.capacity, a :: h.recent, h.size + 1, h.forgotten, by
    rw [List.length_cons, h.length_recent]; omega⟩

/-- Puts a value in; the oldest one goes if there is no room. -/
def push (h : History α) (a : α) : History α := (h.extended a).bounded h.capacity

/-- Changes the capacity; the newest values stay. -/
def resize (h : History α) (capacity : Option Nat) : History α := h.bounded capacity

/-- Takes the newest value out. -/
def pop? (h : History α) : Option (α × History α) :=
  match h with
  | ⟨capacity, a :: rest, size + 1, forgotten, length_recent⟩ =>
    some (a, ⟨capacity, rest, size, forgotten, by
      rw [List.length_cons] at length_recent; omega⟩)
  | _ => none

/-- Drops all values. -/
def clear (h : History α) : History α := .empty h.capacity

/-- The history holds no more values than its capacity allows. -/
def Fits (h : History α) : Prop := ∀ n, h.capacity = some n → h.size ≤ n

/-! ## What operations do to the values kept -/

@[simp] theorem length_kept (h : History α) : h.kept.length = h.size := by
  rw [kept, List.length_take, h.length_recent]; omega

@[simp] theorem length_toList (h : History α) : h.toList.length = h.size := by simp [toList]

@[simp] theorem kept_empty (capacity : Option Nat) : (empty capacity : History α).kept = [] := rfl

@[simp] theorem kept_clear (h : History α) : h.clear.kept = [] := rfl

@[simp] theorem kept_extended (h : History α) (a : α) : (h.extended a).kept = a :: h.kept := by
  simp [kept, extended]

@[simp] theorem size_bounded (h : History α) (capacity : Option Nat) :
    (h.bounded capacity).size = allowed capacity h.size := by
  unfold bounded; split <;> rfl

@[simp] theorem capacity_bounded (h : History α) (capacity : Option Nat) :
    (h.bounded capacity).capacity = capacity := by
  unfold bounded; split <;> rfl

theorem kept_bounded (h : History α) (capacity : Option Nat) :
    (h.bounded capacity).kept = h.kept.take (allowed capacity h.size) := by
  have := allowed_le capacity h.size
  unfold bounded
  split
  · simp only [kept, List.take_take, Nat.min_eq_left this]
  · simp only [kept, List.take_take, Nat.min_self, Nat.min_eq_left this]

/-- The newest values are kept, as many as there may be. -/
theorem kept_push (h : History α) (a : α) :
    (h.push a).kept = (a :: h.kept).take (allowed h.capacity (h.size + 1)) := by
  rw [push, kept_bounded, kept_extended]; rfl

theorem kept_resize (h : History α) (capacity : Option Nat) :
    (h.resize capacity).kept = h.kept.take (allowed capacity h.size) := kept_bounded h capacity

/-- The newest value is taken out, and the others stay. -/
theorem kept_pop? (h : History α) :
    h.pop?.map (fun (a, rest) => a :: rest.kept) = if h.kept = [] then none else some h.kept := by
  obtain ⟨capacity, recent, size, forgotten, length_recent⟩ := h
  cases size with
  | zero => cases recent <;> simp [pop?, kept]
  | succ size =>
    cases recent with
    | nil => rw [List.length_nil] at length_recent; omega
    | cons a rest => simp [pop?, kept]

theorem kept_of_pop? {h rest : History α} {a : α} (hpop : h.pop? = some (a, rest)) :
    h.kept = a :: rest.kept := by
  have hkept := kept_pop? h
  rw [hpop] at hkept
  split at hkept
  · contradiction
  · exact (Option.some.inj hkept).symm

/-- A value that is kept can be taken out. -/
theorem exists_pop?_of_kept {h : History α} {a : α} {kept : List α} (hkept : h.kept = a :: kept) :
    ∃ rest, h.pop? = some (a, rest) ∧ rest.kept = kept := by
  cases hpop : h.pop? with
  | none =>
    have hnone := kept_pop? h
    rw [hpop, if_neg (by rw [hkept]; exact List.cons_ne_nil a kept)] at hnone
    contradiction
  | some p =>
    obtain ⟨b, rest⟩ := p
    have hcons := kept_of_pop? hpop
    rw [hkept] at hcons
    obtain ⟨rfl, hrest⟩ := List.cons.inj hcons
    exact ⟨rest, rfl, hrest.symm⟩

/-- Without a bound nothing is forgotten. -/
theorem kept_push_of_unbounded {h : History α} (hcapacity : h.capacity = none) (a : α) :
    (h.push a).kept = a :: h.kept := by
  rw [kept_push, hcapacity]
  exact List.take_of_length_le (by simp [allowed])

@[simp] theorem size_push (h : History α) (a : α) :
    (h.push a).size = allowed h.capacity (h.size + 1) := size_bounded _ _

@[simp] theorem capacity_push (h : History α) (a : α) : (h.push a).capacity = h.capacity :=
  capacity_bounded _ _

theorem capacity_of_pop? {h rest : History α} {a : α} (hpop : h.pop? = some (a, rest)) :
    rest.capacity = h.capacity := by
  obtain ⟨capacity, recent, size, forgotten, length_recent⟩ := h
  unfold pop? at hpop
  split at hpop
  · rename_i heq
    obtain ⟨-, rfl⟩ := Prod.mk.inj (Option.some.inj hpop)
    exact (congrArg History.capacity heq).symm
  · contradiction

/-! ## Bounds -/

theorem fits_bounded (h : History α) (capacity : Option Nat) : (h.bounded capacity).Fits := by
  intro n hn
  rw [capacity_bounded] at hn
  subst hn
  rw [size_bounded]
  exact Nat.min_le_right _ _

theorem fits_push (h : History α) (a : α) : (h.push a).Fits := fits_bounded _ _

theorem fits_resize (h : History α) (capacity : Option Nat) : (h.resize capacity).Fits :=
  fits_bounded _ _

theorem fits_clear (h : History α) : h.clear.Fits := fun _ _ => Nat.zero_le _

theorem size_of_pop? {h rest : History α} {a : α} (hpop : h.pop? = some (a, rest)) :
    h.size = rest.size + 1 := by
  rw [← length_kept, kept_of_pop? hpop, List.length_cons, length_kept]

theorem fits_of_pop? {h rest : History α} {a : α} (hfits : h.Fits)
    (hpop : h.pop? = some (a, rest)) : rest.Fits := by
  intro n hn
  have hle := hfits n (by rw [← capacity_of_pop? hpop, hn])
  have hsize := size_of_pop? hpop
  omega

/-- As many values as the history holds are allowed. -/
theorem Fits.allowed_size {h : History α} (hfits : h.Fits) :
    allowed h.capacity h.size = h.size := by
  cases hcapacity : h.capacity with
  | none => rfl
  | some n => exact Nat.min_eq_left (hfits n hcapacity)

/-- Where a value was taken out there is room for another one. -/
theorem kept_push_of_pop? {h rest : History α} {a : α} (hfits : h.Fits)
    (hpop : h.pop? = some (a, rest)) (b : α) : (rest.push b).kept = b :: rest.kept := by
  rw [kept_push, capacity_of_pop? hpop, ← size_of_pop? hpop, hfits.allowed_size]
  have hsize := size_of_pop? hpop
  apply List.take_of_length_le
  simp only [List.length_cons, length_kept]
  omega

/-! ## What a function makes of the values -/

section map

variable {β : Type} (f : α → β)

/-- The history of what a function makes of the values. -/
def map (h : History α) : History β :=
  ⟨h.capacity, h.recent.map f, h.size, h.forgotten, by rw [List.length_map, h.length_recent]⟩

@[simp] theorem kept_map (h : History α) : (h.map f).kept = h.kept.map f := by
  simp [map, kept, List.map_take]

@[simp] theorem toList_map (h : History α) : (h.map f).toList = h.toList.map f := by
  simp [toList]

/-- What a function leaves alone the second time may be mapped again. -/
theorem map_map_self {f : α → α} (hf : ∀ a, f (f a) = f a) (h : History α) :
    (h.map f).map f = h.map f := by
  simp [map, hf]

theorem bounded_map (h : History α) (capacity : Option Nat) :
    (h.map f).bounded capacity = (h.bounded capacity).map f := by
  unfold bounded
  -- the sizes are the same, so both sides sweep at the same time
  by_cases hroom : h.size + h.forgotten ≤ 2 * allowed capacity h.size
  · simp [map, hroom]
  · simp [map, hroom, List.map_take]

theorem resize_map (h : History α) (capacity : Option Nat) :
    (h.map f).resize capacity = (h.resize capacity).map f := bounded_map f h capacity

theorem push_map (h : History α) (a : α) : (h.map f).push (f a) = (h.push a).map f :=
  bounded_map f (h.extended a) h.capacity

theorem pop?_map (h : History α) : (h.map f).pop? = h.pop?.map (Prod.map f (map f)) := by
  obtain ⟨capacity, recent, size, forgotten, length_recent⟩ := h
  cases recent with
  | nil => rfl
  | cons a rest => cases size <;> rfl

end map

end History

end TapeMachine
