import TapeMachine.Config.Store
import TapeMachine.Proofs.Walks

/-!
# Valid configurations

## Main results

- `valid_iff`: what the checks of a configuration amount to
- `Valid.set_text`: a text may be replaced by any other
- `valid_of_load`: what is loaded is valid
-/

namespace TapeMachine.Config

open Text (Loose)

variable {config : Config} {key other : Key}

/-- Settings have different names. -/
theorem same_name_iff : Name.Same (.text key.name) (.text other.name) ↔ key = other := by
  rw [Name.same_text_text]
  constructor
  · intro h
    have hname : key.name = other.name := Loose.whole.inj h
    revert hname
    cases key <;> cases other <;> decide
  · rintro rfl
    rfl

theorem value?_set_same (config : Config) (key : Key) (value : Json) :
    (config.set key value).value? key = some value :=
  get?_put_of_same config value (same_name_iff.2 rfl)

theorem value?_set_of_ne (config : Config) (value : Json) (h : key ≠ other) :
    (config.set key value).value? other = config.value? other :=
  get?_put_of_not_same config value (mt same_name_iff.1 h)

/-- A configuration is valid if every setting has a value of its kind, and the numbers are as great
as they have to be. -/
theorem valid_iff : config.Valid ↔
    (∀ key : Key, ∃ value, config.value? key = some value ∧ key.kind.holds value = true) ∧
    (∀ key ∈ Key.positive, 0 < config.int key) ∧ 0 ≤ config.int .tapeWindow := by
  have hall : ∀ key : Key, key ∈ Key.all := by
    intro key
    cases key <;> decide
  have hkind : ∀ key, config.kindFault? key = none ↔
      ∃ value, config.value? key = some value ∧ key.kind.holds value = true := by
    intro key
    unfold kindFault?
    split <;> simp_all
  have hsign : ∀ key, config.signFault? key = none ↔ 0 < config.int key := by
    intro key
    unfold signFault?
    split <;> simp_all
  have hwindow : config.windowFault? = none ↔ 0 ≤ config.int .tapeWindow := by
    unfold windowFault?
    split <;> simp_all
  -- there is no fault if no check finds one
  unfold Valid fault?
  simp only [Option.isNone_iff_eq_none, Option.orElse_eq_orElse, Option.orElse_eq_or,
    Option.or_eq_none_iff, List.findSome?_eq_none_iff, hkind, hsign, hwindow]
  exact and_congr_left' ⟨fun h key => h key (hall key), fun h key _ => h key⟩

/-- A text may be replaced by any other. -/
theorem Valid.set_text (h : config.Valid) (hkey : key.kind = .text) (s : Loose) :
    (config.set key (.str s)).Valid := by
  obtain ⟨hkinds, hsigns, hwindow⟩ := valid_iff.1 h
  have hint : ∀ {other : Key}, other.kind = .integer →
      (config.set key (.str s)).int other = config.int other := by
    intro other hother
    have hne : key ≠ other := by
      rintro rfl
      rw [hkey] at hother
      contradiction
    rw [int, value?_set_of_ne config _ hne, int]
  -- no check but that of its kind looks at a text
  have hpositive : ∀ other ∈ Key.positive, other.kind = .integer := by decide
  refine valid_iff.2 ⟨fun other => ?_, fun other hother => ?_, ?_⟩
  · by_cases hother : key = other
    · subst hother
      exact ⟨.str s, value?_set_same config key _, by rw [hkey]; rfl⟩
    · rw [value?_set_of_ne config _ hother]
      exact hkinds other
  · rw [hint (hpositive other hother)]
    exact hsigns other hother
  · rwa [hint rfl]

/-- The value of a text setting is a text. -/
theorem Valid.exists_text (h : config.Valid) (hkey : key.kind = .text) :
    ∃ s, config.value? key = some (.str s) := by
  obtain ⟨value, hvalue, hholds⟩ := (valid_iff.1 h).1 key
  rw [hkey] at hholds
  cases value with
  | str s => exact ⟨s, hvalue⟩
  | _ => contradiction

/-- The value of an integer setting is an integer. -/
theorem Valid.exists_int (h : config.Valid) (hkey : key.kind = .integer) :
    ∃ n, config.value? key = some (.int n) := by
  obtain ⟨value, hvalue, hholds⟩ := (valid_iff.1 h).1 key
  rw [hkey] at hholds
  cases value with
  | int n => exact ⟨n, hvalue⟩
  | _ => contradiction

/-- What is loaded has been checked. -/
theorem valid_of_load {tree : Files.Tree} {path : String} (h : load tree path = .ok config) :
    config.Valid := by
  unfold load at h
  dsimp only at h
  split at h
  · contradiction
  · obtain ⟨text, -, h⟩ := bind_eq_ok h
    obtain ⟨value, -, h⟩ := bind_eq_ok h
    obtain ⟨merged, -, h⟩ := bind_eq_ok h
    unfold check at h
    split at h
    · contradiction
    · rename_i hfault
      obtain rfl := Except.ok.inj h
      rw [Valid, hfault]
      rfl

end TapeMachine.Config
