import Mathlib.Data.List.TakeWhile
import TapeMachine.Command.Options
import TapeMachine.Proofs.Walks

/-!
# Switches with a value behind an equals sign

Behind an equals sign stands a value, whatever it looks like, and it belongs to the switch in front
of the sign. The one text that is no value there is `--`.

## Main results

- `readArguments_eq_ok_iff`: when arguments are no misuse
- `readArguments_append_attached`: what comes of a switch with a value that is put behind them
-/

namespace TapeMachine.Command

/-! ## What a switch is given with -/

theorem Given.get?_append (given : Given) (name other : String) (value : Option String) :
    Given.get? (given ++ [(name, value)]) other =
      if name = other then some value else given.get? other := by
  unfold Given.get?
  rw [List.reverse_append, List.reverse_singleton, List.singleton_append]
  by_cases h : name = other
  · simp [h]
  · rw [List.find?_cons_of_neg (by simpa using h), if_neg h]

/-! ## The parts of arguments -/

theorem cutAtEquals_append {name : String} (h : '=' ∉ name.toList) (value : String) :
    cutAtEquals (name ++ "=" ++ value) = (name, some value) := by
  have hname : ∀ c ∈ name.toList, (c != '=') = true := by
    intro c hc
    rw [bne_iff_ne]
    rintro rfl
    exact h hc
  have harg : (name ++ "=" ++ value).toList = name.toList ++ '=' :: value.toList := by simp
  unfold cutAtEquals
  rw [harg, List.dropWhile_append_of_pos hname, List.takeWhile_append_of_pos hname]
  simp

/-- Behind an equals sign everything is a value of the switch that is named in front of it. -/
theorem roleOf_attached {switches : List Switch} {s : Switch} {letters : List Char}
    (hname : s.name.toList = '-' :: '-' :: letters)
    (hfind : switches.find? (·.name == s.name) = some s)
    (hequals : ∀ other ∈ switches, '=' ∉ other.name.toList) (value : String) :
    roleOf switches (s.name ++ "=" ++ value) = .ok (.switch s (some value)) := by
  have harg : (s.name ++ "=" ++ value).toList = '-' :: '-' :: (letters ++ '=' :: value.toList) := by
    simp [hname]
  -- the argument as a whole is the name of no switch
  have hnone : switches.find? (·.name == s.name ++ "=" ++ value) = none := by
    rw [List.find?_eq_none]
    intro other hother heq
    apply hequals other hother
    rw [eq_of_beq heq]
    simp
  unfold roleOf
  rw [harg]
  unfold dashedRole
  rw [cutAtEquals_append (hequals s (List.mem_of_find?_eq_some hfind))]
  simp only [hnone, hfind]

/-- A list is taken as a whole if the end of the switches is not in it. -/
theorem takeWhile_ne_dashes_iff {args : List String} :
    args.takeWhile (· != "--") = args ↔ "--" ∉ args := by
  rw [List.takeWhile_eq_self_iff]
  simp only [bne_iff_ne]
  exact ⟨fun h hmem => h _ hmem rfl, fun h arg harg heq => h (heq ▸ harg)⟩

/-! ## Giving switches their values -/

/-- What a switch is given with if a value stands behind an equals sign. -/
def Switch.attached (s : Switch) (value : String) : Except Refusal (Option String) :=
  if s.takes = .help && s.repeats value then .error .help
  else if value = "--" && s.takes.value then .ok none
  else if s.takes.allows value then .ok (some value)
  else .error .misuse

/-- A value behind an equals sign is taken or refused whatever comes before it. -/
theorem assign_append_attached (s : Switch) (value arg : String) (roles : List (String × Role)) :
    assign (roles ++ [(arg, .switch s (some value))]) = (do
      let (given, complete) ← assign roles
      let last ← s.attached value
      pure (given ++ [(s.name, last)], complete)) := by
  -- a switch that takes the argument behind it does not take another switch
  have hvalued : ∀ {rest : List (String × Role)},
      (∀ value others, rest = (value, .value) :: others → False) →
      ∀ value' others, rest ++ [(arg, .switch s (some value))] = (value', .value) :: others →
        False := by
    intro rest hrest value' others heq
    cases rest with
    | nil => cases heq
    | cons first rest => cases heq; exact hrest _ _ rfl
  fun_induction assign roles with
  | case1 =>
    rw [List.nil_append, assign, Switch.attached]
    split
    · rfl
    · split
      · rfl
      · split <;> rfl
  | case2 _ rest ih | case3 _ rest ih =>
    rw [List.cons_append, assign, ih]
    cases assign rest <;> cases s.attached value <;> rfl
  | case4 _ _ _ _ hhelp =>
    rw [List.cons_append, assign, if_pos hhelp]
    rfl
  | case5 _ _ _ rest hhelp hdashes ih =>
    rw [List.cons_append, assign, if_neg hhelp, if_pos hdashes, ih]
    cases assign rest <;> cases s.attached value <;> rfl
  | case6 _ _ _ rest hhelp hdashes hallows ih =>
    rw [List.cons_append, assign, if_neg hhelp, if_neg hdashes, if_pos hallows, ih]
    cases assign rest <;> cases s.attached value <;> rfl
  | case7 _ _ _ _ hhelp hdashes hallows =>
    rw [List.cons_append, assign, if_neg hhelp, if_neg hdashes, if_neg hallows]
    rfl
  | case8 _ _ _ hhelp =>
    rw [List.cons_append]
    unfold assign
    rw [if_pos hhelp]
    rfl
  | case9 _ _ rest hhelp hnothing ih =>
    rw [List.cons_append]
    conv => lhs; unfold assign
    rw [if_neg hhelp, if_pos hnothing, ih]
    cases assign rest <;> cases s.attached value <;> rfl
  | case10 _ _ hhelp hnothing _ others hallows ih =>
    rw [List.cons_append, List.cons_append, assign, if_neg hhelp, if_neg hnothing, if_pos hallows,
      ih]
    cases assign others <;> cases s.attached value <;> rfl
  | case11 _ _ hhelp hnothing _ _ hallows =>
    rw [List.cons_append, List.cons_append, assign, if_neg hhelp, if_neg hnothing, if_neg hallows]
    rfl
  | case12 _ _ _ hhelp hnothing hrest =>
    rw [List.cons_append, assign, if_neg hhelp, if_neg hnothing]
    · rfl
    · exact hvalued hrest

/-- Arguments are read if none of them is a bare `--`, every one has a part to play, no value is
left over, and the switches that are required are given. -/
theorem readArguments_eq_ok_iff {switches : List Switch} {args : List String} {given : Given} :
    readArguments switches args = .ok given ↔
      "--" ∉ args ∧ (∃ roles, args.mapM (roleOf (helpSwitches ++ switches)) = .ok roles ∧
        assign (args.zip roles) = .ok (given, true)) ∧
      (switches.all fun s => !s.required || given.has s.name) = true := by
  unfold readArguments
  dsimp only
  constructor
  · intro h
    obtain ⟨roles, hroles, h⟩ := bind_eq_ok h
    obtain ⟨⟨given', complete⟩, hassign, h⟩ := bind_eq_ok h
    dsimp only at h
    split at h
    · rename_i hchecks
      obtain rfl := Except.ok.inj h
      simp only [Bool.and_eq_true, beq_iff_eq] at hchecks
      obtain ⟨⟨rfl, hlength⟩, hrequired⟩ := hchecks
      -- as long as the whole, the part in front of a bare `--` is the whole
      have hfront : args.takeWhile (· != "--") = args :=
        (List.takeWhile_prefix _).eq_of_length hlength
      rw [hfront] at hroles hassign
      exact ⟨takeWhile_ne_dashes_iff.1 hfront, ⟨roles, hroles, hassign⟩, hrequired⟩
    · contradiction
  · rintro ⟨hdashes, ⟨roles, hroles, hassign⟩, hrequired⟩
    simp only [takeWhile_ne_dashes_iff.2 hdashes, hroles, hassign, bind, Except.bind,
      beq_self_eq_true, hrequired, Bool.and_self, if_true, pure, Except.pure]

/-- Behind arguments that are no misuse a switch is given with the value that is attached to it, or
the command is not run. -/
theorem readArguments_append_attached {switches : List Switch} {s : Switch} {letters : List Char}
    (hname : s.name.toList = '-' :: '-' :: letters)
    (hfind : (helpSwitches ++ switches).find? (·.name == s.name) = some s)
    (hequals : ∀ other ∈ helpSwitches ++ switches, '=' ∉ other.name.toList) (value : String)
    {args : List String} {given : Given} (h : readArguments switches args = .ok given) :
    readArguments switches (args ++ [s.name ++ "=" ++ value]) =
      (s.attached value).map fun last => given ++ [(s.name, last)] := by
  obtain ⟨hdashes, ⟨roles, hroles, hassign⟩, hrequired⟩ := readArguments_eq_ok_iff.1 h
  have hrole := roleOf_attached hname hfind hequals value
  have hfront : "--" ∉ args ++ [s.name ++ "=" ++ value] := by
    rw [List.mem_append, List.mem_singleton, not_or]
    refine ⟨hdashes, fun heq => ?_⟩
    have hmem : '=' ∈ (s.name ++ "=" ++ value).toList := by simp
    rw [← heq] at hmem
    exact absurd hmem (by decide)
  have hall : (args ++ [s.name ++ "=" ++ value]).mapM (roleOf (helpSwitches ++ switches)) =
      .ok (roles ++ [.switch s (some value)]) := by
    rw [List.mapM_append, hroles, List.mapM_cons, hrole]
    rfl
  have hlast := assign_append_attached s value (s.name ++ "=" ++ value) (args.zip roles)
  rw [hassign] at hlast
  have hzip : (args ++ [s.name ++ "=" ++ value]).zip (roles ++ [.switch s (some value)]) =
      args.zip roles ++ [(s.name ++ "=" ++ value, .switch s (some value))] := by
    rw [List.zip_append (mapM_eq_ok_iff.1 hroles).length_eq, List.zip_cons_cons, List.zip_nil_left]
  cases hattached : s.attached value with
  | error refusal =>
    rw [hattached] at hlast
    unfold readArguments
    dsimp only
    rw [takeWhile_ne_dashes_iff.2 hfront, hall]
    show (assign _ >>= _) = _
    rw [hzip, hlast]
    rfl
  | ok last =>
    rw [hattached] at hlast
    refine readArguments_eq_ok_iff.2 ⟨hfront, ⟨_, hall, by rw [hzip, hlast]; rfl⟩, ?_⟩
    -- what was given before is still given
    rw [List.all_eq_true] at hrequired ⊢
    intro other hother
    have hother := hrequired other hother
    rw [Bool.or_eq_true] at hother ⊢
    refine hother.imp_right fun hhas => ?_
    rw [Given.has, Given.get?_append]
    split
    · rfl
    · exact hhas

end TapeMachine.Command
