import TapeMachine.Proofs.SavedSettings

/-!
# What cannot be saved

A long integer and a value that is nested deeply are not written to their end, so a configuration that
holds one is valid and spoils its file. Many directories inside each other cannot be made at once,
though each of them could be.

## Main results

- `Files.Tree.ensureDirectoriesWithin_deep`: as many directories as that are not made
- `Config.exists_valid_not_stored`: there are valid configurations that are not saved, or not loaded
  as they were
-/

namespace TapeMachine

open Text (CodePoint Loose)

namespace Files

/-! ## Directories -/

/-- The path of directories inside each other: `a`, `a/a`, and so on. -/
def deepChars : Nat → List Char
  | 0 => ['a']
  | n + 1 => deepChars n ++ ['/', 'a']

/-- The path as a text. -/
def deepDirectory (n : Nat) : Loose := .ofPoints ((deepChars n).map .char)

/-- A path is cut at its last slash. -/
theorem split_append {front name : List CodePoint} (hname : slash ∉ name)
    (hfront : ∃ init last, front = init ++ [last] ∧ last ≠ slash) :
    split (.ofPoints (front ++ slash :: name)) = (.ofPoints front, .ofPoints name) := by
  obtain ⟨init, last, rfl, hlast⟩ := hfront
  have hback : (init ++ [last] ++ slash :: name).reverse =
      name.reverse ++ slash :: last :: init.reverse := by simp
  have hall : ∀ p ∈ name.reverse, (p != slash) = true := by
    intro p hp
    rw [bne_iff_ne]
    rintro rfl
    exact hname (List.mem_reverse.1 hp)
  have hdrop : dropSlashes (init ++ [last, slash]) = init ++ [last] := by
    unfold dropSlashes
    rw [if_neg (by simp [hlast])]
    simp [hlast]
  unfold split
  simp only [Loose.points_ofPoints, hback]
  rw [List.takeWhile_append_of_pos hall, List.dropWhile_append_of_pos hall]
  simp [hdrop]

/-- The path does not end with a slash. -/
theorem exists_map_deepChars (n : Nat) :
    ∃ init last, (deepChars n).map CodePoint.char = init ++ [last] ∧ last ≠ slash := by
  cases n with
  | zero => exact ⟨[], .char 'a', rfl, by decide⟩
  | succ n =>
    refine ⟨(deepChars n).map .char ++ [slash], .char 'a', ?_, by decide⟩
    simp [deepChars, slash]

theorem splitLast_deepDirectory (n : Nat) :
    Tree.splitLast (deepDirectory (n + 1)) = (deepDirectory n, .ofPoints [.char 'a']) := by
  have hpath : deepDirectory (n + 1) =
      .ofPoints ((deepChars n).map .char ++ slash :: [.char 'a']) := by
    simp [deepDirectory, deepChars, slash]
  unfold Tree.splitLast
  rw [hpath, split_append (by decide) (exists_map_deepChars n)]
  rfl

/-- The first of the directories is `a`. -/
theorem exists_deepChars (n : Nat) :
    ∃ cs, deepChars n = 'a' :: cs ∧ (cs = [] ∨ ∃ cs', cs = '/' :: cs') := by
  induction n with
  | zero => exact ⟨[], rfl, .inl rfl⟩
  | succ n ih =>
    obtain ⟨cs, hcs, rfl | ⟨cs', rfl⟩⟩ := ih
    · exact ⟨['/', 'a'], by rw [deepChars, hcs]; rfl, .inr ⟨_, rfl⟩⟩
    · exact ⟨'/' :: cs' ++ ['/', 'a'], by rw [deepChars, hcs]; rfl, .inr ⟨_, rfl⟩⟩

theorem deepDirectory_eq (n : Nat) : deepDirectory n = .whole (String.ofList (deepChars n)) := by
  rw [deepDirectory, ← Loose.ofPoints_points (.whole _), Loose.points, String.toList_ofList]

theorem deepDirectory_ne_empty (n : Nat) : deepDirectory n ≠ "" := by
  obtain ⟨cs, hcs, -⟩ := exists_deepChars n
  intro h
  have hpoints := congrArg Loose.points h
  rw [deepDirectory, hcs, Loose.points_ofPoints] at hpoints
  exact List.cons_ne_nil _ _ hpoints

theorem exists_components_deepDirectory (n : Nat) :
    ∃ names, components (deepDirectory n) = .ofPoints [.char 'a'] :: names := by
  obtain ⟨cs, hcs, hrest⟩ := exists_deepChars n
  have hsplit : ∃ pieces, Text.splitAt slash ((deepChars n).map .char) = [.char 'a'] :: pieces := by
    rw [hcs]
    rcases hrest with rfl | ⟨cs', rfl⟩
    · exact ⟨[], rfl⟩
    · exact ⟨Text.splitAt slash (cs'.map .char), rfl⟩
  obtain ⟨pieces, hpieces⟩ := hsplit
  rw [components, deepDirectory, Loose.points_ofPoints, hpieces]
  exact ⟨_, rfl⟩

namespace Tree

/-- In the empty tree a path that starts like this leads nowhere. -/
theorem lookUp_of_walk_empty {names : List Loose} {place : Place}
    (h : walk empty [] (.ofPoints [.char 'a'] :: names) = .ok place) :
    lookUp empty place = .ok none := by
  cases names with
  | nil =>
    cases h
    rfl
  | cons name names => contradiction

theorem look_deepDirectory (n : Nat) : ∃ cause, empty.look (deepDirectory n) = .error cause := by
  obtain ⟨names, hnames⟩ := exists_components_deepDirectory n
  have hstart : start (deepDirectory n) = [] := by
    obtain ⟨cs, hcs, -⟩ := exists_deepChars n
    have habsolute : isAbsolute (deepDirectory n) = false := by
      rw [isAbsolute, deepDirectory, Loose.points_ofPoints, hcs]
      rfl
    rw [start, habsolute]
    rfl
  have hasked : ∃ names', (if endsWithSlash (deepDirectory n) then
      components (deepDirectory n) ++ [Loose.whole "."] else components (deepDirectory n)) =
        .ofPoints [.char 'a'] :: names' := by
    rw [hnames]
    split <;> exact ⟨_, rfl⟩
  obtain ⟨names', hnames'⟩ := hasked
  -- the first name is looked for where nothing stands
  unfold look
  dsimp only
  rw [hnames']
  cases hfollow : empty.follow (deepDirectory n) (.ofPoints [.char 'a'] :: names') with
  | error cause => exact ⟨cause, rfl⟩
  | ok place =>
    unfold follow at hfollow
    rw [if_neg (deepDirectory_ne_empty n), hstart] at hfollow
    split at hfollow
    · contradiction
    · refine ⟨.notFound, ?_⟩
      show (empty.lookUp place).bind _ = _
      rw [lookUp_of_walk_empty hfollow]
      rfl

/-- In the empty tree there is none of the directories. -/
theorem exists?_deepDirectory (n : Nat) : empty.exists? (deepDirectory n) = false := by
  obtain ⟨cause, hlook⟩ := look_deepDirectory n
  rw [deepDirectory_eq] at hlook ⊢
  unfold exists?
  rw [passed_whole]
  split
  · rfl
  · rename_i hpassed
    split at hpassed
    · contradiction
    · cases hpassed
      rw [hlook]

/-- As many directories as that are not made, though nothing else is in the way. -/
theorem ensureDirectoriesWithin_deep {depth n : Nat} (h : depth ≤ n) :
    ensureDirectoriesWithin depth empty (deepDirectory n) = (empty, some .tooDeep) := by
  -- on the depth: the directory above each of them has to be made first
  induction depth generalizing n with
  | zero => rfl
  | succ depth ih =>
    obtain ⟨n, rfl⟩ : ∃ k, n = k + 1 := ⟨n - 1, by omega⟩
    have hlead := deepDirectory_ne_empty n
    have hname : Loose.ofPoints [CodePoint.char 'a'] ≠ "" := by decide
    rw [ensureDirectoriesWithin, splitLast_deepDirectory]
    simp only [exists?_deepDirectory, ih (by omega : depth ≤ n), ne_eq, hlead, hname,
      not_false_eq_true, decide_true, Bool.not_false, Bool.and_self, if_true]

end Tree

end Files

namespace Config

open Files (Tree deepChars deepDirectory)

/-! ## Configurations -/

/-- A file below directories inside each other. -/
def deepPath (n : Nat) : String := String.ofList (deepChars n ++ "/c.json".toList)

theorem octetCount_deepPath (n : Nat) : Files.octetCount (deepPath n) = 2 * n + 8 := by
  have hdeep : (String.ofList (deepChars n)).utf8ByteSize = 2 * n + 1 := by
    induction n with
    | zero => rfl
    | succ n ih =>
      have hpair : (String.ofList ['/', 'a']).utf8ByteSize = 2 := by rfl
      rw [deepChars, String.ofList_append, String.utf8ByteSize_append, ih, hpair]
      omega
  have hfile : (String.ofList "/c.json".toList).utf8ByteSize = 7 := by
    rw [String.ofList_toList]
    rfl
  show (deepPath n).utf8ByteSize = _
  rw [deepPath, String.ofList_append, String.utf8ByteSize_append, hdeep, hfile]

theorem directoryOf_deepPath (n : Nat) : Files.directoryOf (deepPath n) = deepDirectory n := by
  have hpath : Loose.whole (deepPath n) =
      .ofPoints ((deepChars n).map .char ++ Files.slash :: "c.json".toList.map .char) := by
    rw [← Loose.ofPoints_points (.whole _), deepPath, Loose.points, String.toList_ofList,
      List.map_append]
    rfl
  have hname : Files.slash ∉ "c.json".toList.map CodePoint.char := by decide
  rw [Files.directoryOf, hpath, Files.split_append hname (Files.exists_map_deepChars n)]
  rfl

/-- A configuration is not saved below so many directories that lack. -/
theorem save_deepPath {config : Config} (hvalid : config.Valid) {n : Nat}
    (hn : Tree.depthLimit ≤ n) :
    config.save .empty (deepPath n) = (.empty, some (.file .tooDeep)) := by
  have hway : Tree.makeWay .empty (deepPath n) = (.empty, some .tooDeep) := by
    rw [Tree.makeWay, directoryOf_deepPath, if_neg (Files.deepDirectory_ne_empty n),
      Tree.ensureDirectories, Tree.ensureDirectoriesWithin_deep hn]
  rw [save_of_valid hvalid, hway]

/-- The settings behind another entry. -/
def behind (v : Json) : Json.Fields := ("x", v) :: defaults.toFields

theorem valid_behind (v : Json) : (ofFields (behind v)).Valid := by
  have hfault : (ofFields (behind v)).fault? = defaults.fault? :=
    fault?_congr fun key => by cases key <;> rfl
  rw [Valid, hfault]
  exact defaults_valid

/-- A long integer, and many arrays inside each other. -/
def unwritable : List (Json × Json.WriteError) :=
  [(.int (Nat.pow 10 Text.Integer.digitLimit), .longInteger ⟨⟩), (.nested 2000, .tooDeep)]

theorem stop?_behind {p : Json × Json.WriteError} (hp : p ∈ unwritable) :
    Json.stop? (ofFields (behind p.1)).chunks = some p.2 := by
  have hstop : Json.stop? (Json.chunks .indented 1 (Json.depthLimit - 1) [] p.1) = some p.2 := by
    rcases List.mem_pair.1 hp with rfl | rfl
    · exact Json.stop?_long (Text.Integer.isWritable_eq_false (Nat.le_refl _)) []
    · exact Json.stop?_nested (by decide) []
  have hfront : Json.stop? [.ok ('\x7b' :: Json.Layout.newline .indented 1), .ok [],
      .ok (Json.stringChars "x" ++ [':', ' '])] = none := rfl
  have hname : Name.isWritable (.text "x") = true := rfl
  show Json.stop? (chunks ((.text "x", p.1) :: ofFields defaults.toFields)) = some p.2
  rw [chunks, entryChunks, if_pos hname, List.append_assoc]
  exact Json.stop?_append hstop hfront _

theorem acceptsFile_empty : Tree.empty.AcceptsFile "c.json" := by
  refine ⟨rfl, ["c.json"], ⟨_, rfl, rfl⟩, rfl, ?_, nofun⟩
  show Files.octetCount _ ≤ Tree.nameLimit
  decide

/-- The settings and an entry that is named by a number. -/
def numbered : Config := defaults.put (.int 1) .null

theorem get?_numbered : numbered.get? (.int 1) = some .null := get?_put_of_same _ _ (.refl _)

/-- A name that is a number is a text when it is loaded. -/
theorem exists_load_numbered : ∃ saved loaded, numbered.save .empty "c.json" = (saved, none) ∧
    load saved "c.json" = .ok loaded ∧ loaded.get? (.int 1) = none := by
  have hothers : ∀ f ∈ [("1", Json.null)], Json.Readable Text.Integer.digitLimit 986 f.2 := by
    rw [List.forall_mem_singleton]
    exact .null
  have hstorable := storable_settingsWith (by decide) hothers
  obtain ⟨saved, loaded, hsaved, hloaded, hget⟩ := @load_of_save numbered .empty "c.json"
    (by decide +kernel) (by decide +kernel) (by decide +kernel) hstorable acceptsFile_empty
  refine ⟨saved, loaded, hsaved, hloaded, ?_⟩
  rw [hget]
  rfl

end Config

end TapeMachine
