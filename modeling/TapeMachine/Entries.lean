import Std.Data.ExtTreeMap

/-!
# Entries

A list of entries, each a name and a value, in which a name stands at most once if the list was made
by `put`. Names that differ may still name one entry; `key` tells which ones do.

To put many entries one after the other takes a walk through the list for each of them. `putAll`
takes none: a `Roster` holds the entries with a tree of their places. `putAll_eq_foldl` says that it
comes to the same.
-/

namespace TapeMachine.Entries

variable {ν β κ : Type} [DecidableEq κ] (key : ν → κ)

/-- The value of an entry. -/
def get? : List (ν × β) → ν → Option β
  | [], _ => none
  | (k, v) :: rest, name => if key k = key name then some v else get? rest name

/-- Gives an entry a value. It stays in its place, and keeps the name that it has; a new one goes to
the end. -/
def put : List (ν × β) → ν → β → List (ν × β)
  | [], name, value => [(name, value)]
  | (k, v) :: rest, name, value =>
    if key k = key name then (k, value) :: rest else (k, v) :: put rest name value

/-- What was put is there. -/
theorem get?_put_of_eq (entries : List (ν × β)) {name other : ν} (value : β)
    (h : key name = key other) : get? key (put key entries name value) other = some value := by
  induction entries with
  | nil => simp [put, get?, h]
  | cons e rest ih =>
    simp only [put]
    split
    · rename_i hk; simp [get?, hk.trans h]
    · rename_i hk
      have hko : key e.1 ≠ key other := fun hko => hk (hko.trans h.symm)
      simp [get?, hko, ih]

/-- All else stays. -/
theorem get?_put_of_ne (entries : List (ν × β)) {name other : ν} (value : β)
    (h : key name ≠ key other) : get? key (put key entries name value) other =
      get? key entries other := by
  induction entries with
  | nil => simp [put, get?, h]
  | cons e rest ih =>
    simp only [put]
    split
    · rename_i hk
      have hko : key e.1 ≠ key other := fun hko => h (hk.symm.trans hko)
      simp [get?, hko]
    · simp [get?, ih]

/-- A new entry goes to the end. -/
theorem put_of_new {entries : List (ν × β)} {name : ν} (value : β)
    (h : ∀ e ∈ entries, key e.1 ≠ key name) :
    put key entries name value = entries ++ [(name, value)] := by
  induction entries with
  | nil => rfl
  | cons e rest ih =>
    obtain ⟨he, hrest⟩ := List.forall_mem_cons.1 h
    rw [put, if_neg he, ih hrest, List.cons_append]

/-- Entries with names of their own are put one behind the other. -/
theorem foldl_put_of_nodup (front others : List (ν × β))
    (h : ((front ++ others).map fun e => key e.1).Nodup) :
    others.foldl (fun es e => put key es e.1 e.2) front = front ++ others := by
  induction others generalizing front with
  | nil => simp
  | cons e rest ih =>
    have hnew : ∀ e' ∈ front, key e'.1 ≠ key e.1 := by
      intro e' he' hkey
      rw [List.map_append, List.nodup_append] at h
      exact h.2.2 (key e'.1) (List.mem_map_of_mem he') (key e.1) (by simp) hkey
    rw [List.foldl_cons, put_of_new key e.2 hnew, ih (front ++ [e]) (by simpa using h),
      List.append_assoc, List.singleton_append]

/-! ## Places -/

/-- Has the entry a key? -/
def hasKey (k : κ) (e : ν × β) : Bool := decide (key e.1 = k)

theorem put_eq_findIdx? (entries : List (ν × β)) (name : ν) (value : β) :
    put key entries name value = match entries.findIdx? (hasKey key (key name)) with
      | some i => entries.modify i fun e => (e.1, value)
      | none => entries ++ [(name, value)] := by
  induction entries with
  | nil => rfl
  | cons e rest ih =>
    by_cases h : key e.1 = key name
    · simp [put, List.findIdx?_cons, hasKey, h]
    · simp only [put, h, if_false, List.findIdx?_cons, hasKey, decide_false, ih,
        Bool.false_eq_true]
      cases rest.findIdx? (hasKey key (key name)) <;> simp_all

/-- A change that keeps the keys keeps the places. -/
theorem findIdx?_modify (entries : List (ν × β)) (k : κ) (i : Nat) (value : β) :
    (entries.modify i fun e => (e.1, value)).findIdx? (hasKey key k) =
      entries.findIdx? (hasKey key k) := by
  induction entries generalizing i with
  | nil => simp
  | cons e rest ih => cases i <;> simp_all [List.findIdx?_cons, hasKey]

variable [Ord κ] [Std.TransOrd κ] [Std.LawfulEqOrd κ]

/-- Entries with the place of the first one under each key. -/
structure Roster (ν β : Type) (key : ν → κ) where
  places : Std.ExtTreeMap κ Nat
  entries : Array (ν × β)
  places_eq : ∀ k, places[k]? = entries.toList.findIdx? (hasKey key k)

/-- The places of entries that stand from a place on. -/
def placesFrom (i : Nat) : List (ν × β) → Std.ExtTreeMap κ Nat
  | [] => ∅
  | e :: rest => (placesFrom (i + 1) rest).insert (key e.1) i

theorem getElem?_placesFrom (i : Nat) (entries : List (ν × β)) (k : κ) :
    (placesFrom key i entries)[k]? = (entries.findIdx? (hasKey key k)).map (· + i) := by
  induction entries generalizing i with
  | nil => simp [placesFrom]
  | cons e rest ih =>
    by_cases h : key e.1 = k
    · simp [placesFrom, List.findIdx?_cons, hasKey, h]
    · simp only [placesFrom, Std.ExtTreeMap.getElem?_insert, Std.compare_eq_iff_eq, h, if_false,
        ih, List.findIdx?_cons, hasKey, decide_false, Bool.false_eq_true, Option.map_map]
      congr 1
      funext n
      simp only [Function.comp_apply]
      omega

namespace Roster

variable {key}

/-- The entries of a list. -/
def ofList (entries : List (ν × β)) : Roster ν β key :=
  ⟨placesFrom key 0 entries, entries.toArray, by simp [getElem?_placesFrom]⟩

/-- The entries in order. -/
def toList (r : Roster ν β key) : List (ν × β) := r.entries.toList

/-- Gives an entry a value, as `Entries.put` does. -/
def put (r : Roster ν β key) (name : ν) (value : β) : Roster ν β key :=
  match h : r.places[key name]? with
  | some i =>
    ⟨r.places, r.entries.modify i fun e => (e.1, value), by
      simp [r.places_eq, Array.toList_modify, findIdx?_modify]⟩
  | none =>
    ⟨r.places.insert (key name) r.entries.size, r.entries.push (name, value), by
      intro k
      rw [r.places_eq] at h
      by_cases hk : key name = k
      · subst hk
        simp [List.findIdx?_append, h, hasKey]
      · simp [Std.ExtTreeMap.getElem?_insert, List.findIdx?_append, r.places_eq, hk, hasKey]⟩

@[simp] theorem toList_ofList (entries : List (ν × β)) :
    (ofList entries : Roster ν β key).toList = entries := by
  simp [ofList, toList]

@[simp] theorem toList_put (r : Roster ν β key) (name : ν) (value : β) :
    (r.put name value).toList = Entries.put key r.toList name value := by
  rw [put_eq_findIdx?, toList, toList, ← r.places_eq]
  unfold put
  split <;> simp_all [Array.toList_modify]

end Roster

/-- Gives several entries values, one after the other. -/
def putAll (entries others : List (ν × β)) : List (ν × β) :=
  (others.foldl (fun (r : Roster ν β key) e => r.put e.1 e.2) (.ofList entries)).toList

theorem putAll_eq_foldl (entries others : List (ν × β)) :
    putAll key entries others = others.foldl (fun es e => put key es e.1 e.2) entries := by
  suffices h : ∀ r : Roster ν β key,
      (others.foldl (fun r e => r.put e.1 e.2) r).toList =
        others.foldl (fun es e => put key es e.1 e.2) r.toList by
    simp [putAll, h]
  induction others with
  | nil => simp
  | cons e rest ih => simp [ih]

theorem putAll_nil_of_nodup {others : List (ν × β)} (h : (others.map fun e => key e.1).Nodup) :
    putAll key [] others = others := by
  rw [putAll_eq_foldl, foldl_put_of_nodup key [] others h, List.nil_append]

end TapeMachine.Entries
