import Mathlib.Data.List.Forall2

/-!
# Computations that may fail

A computation that ends well has parts that end well. A walk over a list does one thing with each
item and stops at the first that fails.

## Main results

- `bind_eq_ok`: a computation that ends well has parts that end well
- `mapM_eq_ok_iff`, `mapM_eq_error_iff`: when a walk ends well, and where it fails
- `mapM_map_of_comm`: what is done to each item alike is done to what the walk gives
-/

namespace TapeMachine

variable {ε α β : Type} {f : α → Except ε β} {xs : List α}

theorem bind_eq_ok {x : Except ε α} {b : β} (h : x >>= f = .ok b) :
    ∃ a, x = .ok a ∧ f a = .ok b := by
  cases x with
  | error e => contradiction
  | ok a => exact ⟨a, rfl, h⟩

theorem exists_of_isOk {x : Except ε α} (h : x.isOk = true) : ∃ a, x = .ok a := by
  cases x with
  | error e => contradiction
  | ok a => exact ⟨a, rfl⟩

theorem mapM_eq_ok_iff {ys : List β} :
    xs.mapM f = .ok ys ↔ List.Forall₂ (fun x y => f x = .ok y) xs ys := by
  induction xs generalizing ys with
  | nil =>
    rw [List.forall₂_nil_left_iff, List.mapM_nil]
    exact ⟨fun h => (Except.ok.inj h).symm, fun h => h ▸ rfl⟩
  | cons x xs ih =>
    rw [List.forall₂_cons_left_iff, List.mapM_cons]
    constructor
    · intro h
      cases hx : f x with
      | error e => rw [hx] at h; contradiction
      | ok y =>
        cases hxs : xs.mapM f with
        | error e => rw [hx, hxs] at h; contradiction
        | ok rest =>
          rw [hx, hxs] at h
          exact ⟨y, rest, rfl, ih.1 hxs, (Except.ok.inj h).symm⟩
    · rintro ⟨y, rest, hx, hrest, rfl⟩
      rw [hx, ih.2 hrest]
      rfl

/-- What a walk gives comes from an item of the list. -/
theorem exists_of_mem_mapM {ys : List β} (h : xs.mapM f = .ok ys) {y : β} (hy : y ∈ ys) :
    ∃ x ∈ xs, f x = .ok y := by
  have hall := mapM_eq_ok_iff.1 h
  clear h
  induction hall with
  | nil => contradiction
  | @cons x z xs zs hx _ ih =>
    cases hy with
    | head => exact ⟨x, List.mem_cons_self, hx⟩
    | tail _ hy =>
      obtain ⟨x', hx', hfx'⟩ := ih hy
      exact ⟨x', List.mem_cons_of_mem x hx', hfx'⟩

/-- A walk that ends well does so at each item. -/
theorem exists_ok_of_mem {ys : List β} (h : xs.mapM f = .ok ys) {x : α} (hx : x ∈ xs) :
    ∃ y, f x = .ok y := by
  have hall := mapM_eq_ok_iff.1 h
  obtain ⟨n, hn, rfl⟩ := List.mem_iff_getElem.1 hx
  exact ⟨_, hall.get hn (hall.length_eq ▸ hn)⟩

theorem mapM_append_of_error {before after : List α} {x : α} {e : ε}
    (hbefore : ∀ b ∈ before, ∃ y, f b = .ok y) (hx : f x = .error e) :
    (before ++ x :: after).mapM f = .error e := by
  induction before with
  | nil =>
    rw [List.nil_append, List.mapM_cons, hx]
    rfl
  | cons b before ih =>
    obtain ⟨⟨y, hy⟩, hbefore⟩ := List.forall_mem_cons.1 hbefore
    rw [List.cons_append, List.mapM_cons, hy, ih hbefore]
    rfl

/-- A walk fails at the first item that fails. -/
theorem mapM_eq_error_iff {e : ε} :
    xs.mapM f = .error e ↔ ∃ before x after, xs = before ++ x :: after ∧
      (∀ b ∈ before, ∃ y, f b = .ok y) ∧ f x = .error e := by
  refine ⟨fun h => ?_, fun ⟨before, x, after, hxs, hbefore, hx⟩ => ?_⟩
  · induction xs with
    | nil => contradiction
    | cons x xs ih =>
      rw [List.mapM_cons] at h
      -- the first item fails, or the failure is among the others
      cases hx : f x with
      | error e' =>
        rw [hx] at h
        obtain rfl := Except.error.inj h
        exact ⟨[], x, xs, rfl, fun b hb => absurd hb List.not_mem_nil, hx⟩
      | ok y =>
        cases hxs : xs.mapM f with
        | ok ys => rw [hx, hxs] at h; contradiction
        | error e' =>
          rw [hx, hxs] at h
          obtain rfl := Except.error.inj h
          obtain ⟨before, z, after, rfl, hbefore, hz⟩ := ih hxs
          exact ⟨x :: before, z, after, rfl, List.forall_mem_cons.2 ⟨⟨y, hx⟩, hbefore⟩, hz⟩
  · rw [hxs]
    exact mapM_append_of_error hbefore hx

/-- A change of the items that only shows in what each of them gives, or in how it fails, only shows
there in a walk. -/
theorem mapM_map_of_comm {g : α → α} {u : β → β} {v : ε → ε}
    (h : ∀ x ∈ xs, f (g x) = ((f x).map u).mapError v) :
    (xs.map g).mapM f = ((xs.mapM f).map (List.map u)).mapError v := by
  induction xs with
  | nil => rfl
  | cons x xs ih =>
    obtain ⟨hx, hxs⟩ := List.forall_mem_cons.1 h
    rw [List.map_cons, List.mapM_cons, List.mapM_cons, hx, ih hxs]
    cases f x with
    | error e => rfl
    | ok y => cases xs.mapM f <;> rfl

end TapeMachine
