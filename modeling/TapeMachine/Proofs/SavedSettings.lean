import TapeMachine.Proofs.ConfigChecks
import TapeMachine.Proofs.FileTree
import TapeMachine.Proofs.JsonChunks

/-!
# Saving a configuration and loading it

What is loaded from a file is laid over the defaults. A valid configuration has a value for every
setting, so nothing is left of the defaults when it is loaded again.

## Main results

- `Entries.get?_putAll`: what is laid over entries wins
- `Config.isWhole_chunks`: what is storable is written to its end
- `Config.fault?_congr`: the checks look at the values of the settings only
- `Config.save_eq_none_iff`: when a configuration is saved
- `Config.load_save`: what was saved is loaded, with every entry and no other
-/

namespace TapeMachine

namespace Entries

variable {ν β κ : Type} [DecidableEq κ] (key : ν → κ)

theorem get?_congr (entries : List (ν × β)) {a b : ν} (h : key a = key b) :
    get? key entries a = get? key entries b := by
  induction entries with
  | nil => rfl
  | cons e rest ih => rw [get?, get?, h, ih]

theorem get?_eq_none {entries : List (ν × β)} {name : ν} (h : ∀ e ∈ entries, key e.1 ≠ key name) :
    get? key entries name = none := by
  induction entries with
  | nil => rfl
  | cons e rest ih =>
    obtain ⟨he, hrest⟩ := List.forall_mem_cons.1 h
    rw [get?, if_neg he, ih hrest]

/-- With different names every entry has the value that stands with it. -/
theorem get?_of_mem {entries : List (ν × β)} (h : (entries.map fun e => key e.1).Nodup)
    {e : ν × β} (he : e ∈ entries) : get? key entries e.1 = some e.2 := by
  induction entries with
  | nil => contradiction
  | cons first rest ih =>
    rw [List.map_cons, List.nodup_cons] at h
    rw [get?]
    rcases List.mem_cons.1 he with rfl | hrest
    · rw [if_pos rfl]
    · rw [if_neg fun hkey => h.1 (List.mem_map.2 ⟨e, hrest, hkey.symm⟩), ih h.2 hrest]

/-- What has a value is among the entries. -/
theorem exists_mem_of_get? {entries : List (ν × β)} {name : ν} {value : β}
    (h : get? key entries name = some value) : ∃ e ∈ entries, key e.1 = key name := by
  by_cases hnone : ∀ e ∈ entries, key e.1 ≠ key name
  · rw [get?_eq_none key hnone] at h
    contradiction
  · simpa using hnone

variable [Ord κ] [Std.TransOrd κ] [Std.LawfulEqOrd κ]

/-- What is laid over entries wins, and the rest stays. -/
theorem get?_putAll (entries : List (ν × β)) {others : List (ν × β)}
    (h : (others.map fun e => key e.1).Nodup) (name : ν) :
    get? key (putAll key entries others) name =
      (get? key others name).or (get? key entries name) := by
  rw [putAll_eq_foldl]
  -- on what is laid over them: a later entry has another name, so it does not undo an earlier one
  induction others generalizing entries with
  | nil => rfl
  | cons e rest ih =>
    rw [List.map_cons, List.nodup_cons] at h
    rw [List.foldl_cons, ih _ h.2, get?]
    by_cases hname : key e.1 = key name
    · have hrest : get? key rest name = none := by
        apply get?_eq_none
        intro e' he' hkey
        exact h.1 (List.mem_map.2 ⟨e', he', hkey.trans hname.symm⟩)
      rw [hrest, if_pos hname, get?_put_of_eq key entries e.2 hname]
      rfl
    · rw [if_neg hname, get?_put_of_ne key entries e.2 hname]

end Entries

namespace Files.Tree

/-- The tree with the directories in front of the last name of a path. Those that lack are made. -/
def makeWay (tree : Tree) (path : String) : Tree × Option FileError :=
  if directoryOf path = "" then (tree, none) else tree.ensureDirectories (directoryOf path)

/-- Can a file be written at the path? Directories may lack on the way, if they can be made. -/
def AcceptsFile (tree : Tree) (path : String) : Prop :=
  (tree.makeWay path).2 = none ∧ ∃ place, LeadsTo (tree.makeWay path).1 path place

end Files.Tree

namespace Config

open Files (Tree)
open Text (Loose)

/-! ## Lookups -/

variable {config : Config} {fields : Json.Fields}

/-- The checks look at the values of the settings only. -/
theorem fault?_congr {a b : Config} (h : ∀ key, a.value? key = b.value? key) :
    a.fault? = b.fault? := by
  have hint : a.int = b.int := funext fun key => by rw [int, int, h]
  have hkind : a.kindFault? = b.kindFault? := funext fun key => by rw [kindFault?, kindFault?, h]
  have hsign : a.signFault? = b.signFault? := funext fun key => by rw [signFault?, signFault?, hint]
  rw [fault?, fault?, hkind, hsign, windowFault?, windowFault?, hint]

/-- Only settings have defaults. -/
theorem exists_key_of_get?_defaults {name : Name} {value : Json}
    (h : defaults.get? name = some value) : ∃ key : Key, Name.Same (.text key.name) name := by
  obtain ⟨e, he, hsame⟩ := Entries.exists_mem_of_get? Name.canonical h
  obtain ⟨key, -, rfl⟩ := List.mem_map.1 he
  exact ⟨key, hsame⟩

/-- Nothing is left of the defaults under a configuration that has every setting. -/
theorem get?_overlaid (hconfig : config.Valid)
    (hdistinct : (config.map fun e => e.1.canonical).Nodup) (name : Name) :
    (defaults.putAll config).get? name = config.get? name := by
  rw [putAll, get?, Entries.get?_putAll Name.canonical defaults hdistinct]
  cases hdefault : Entries.get? Name.canonical defaults name with
  | none => exact Option.or_none
  | some value =>
    obtain ⟨key, hsame⟩ := exists_key_of_get?_defaults hdefault
    obtain ⟨held, hheld, -⟩ := (valid_iff.1 hconfig).1 key
    have hget : Entries.get? Name.canonical config name = some held := by
      rw [← Entries.get?_congr Name.canonical config hsame]
      exact hheld
    rw [get?, hget]
    rfl

/-- Fields with different names are entries with different names. -/
theorem nodup_ofFields (h : (fields.map (·.1)).Nodup) :
    ((ofFields fields).map fun e => e.1.canonical).Nodup := by
  rw [ofFields, List.map_map]
  exact List.pairwise_map.2 ((List.pairwise_map.1 h).imp fun hne heq => hne (Name.text.inj heq))

/-! ## Texts -/

/-- The text of a configuration is written to its end. -/
def IsWritable (config : Config) : Prop := Json.stop? config.chunks = none

instance (config : Config) : Decidable config.IsWritable := inferInstanceAs (Decidable (_ = none))

/-- What is written of a configuration. -/
def written (config : Config) : String := String.ofList (Json.written config.chunks)

theorem toFields_cons (e : Name × Json) (rest : Config) :
    toFields (e :: rest) = (e.1.written, e.2) :: toFields rest := rfl

theorem flatMap_entryChunks (h : ∀ e ∈ config, e.1.isWritable = true) :
    config.flatMap (fun e => entryChunks (Json.Layout.separator .indented 1) e.1 e.2) =
      Json.fieldChunks .indented 1 (Json.depthLimit - 1) config.toFields := by
  induction config with
  | nil =>
    rw [toFields, List.map_nil, Json.fieldChunks]
    rfl
  | cons e rest ih =>
    obtain ⟨he, hrest⟩ := List.forall_mem_cons.1 h
    rw [List.flatMap_cons, ih hrest, entryChunks, if_pos he, toFields_cons, Json.fieldChunks]

/-- All chunks of a storable configuration are written, if its names have a text. -/
theorem isWhole_chunks (hnames : ∀ e ∈ config, e.1.isWritable = true)
    (h : Json.Storable Text.Integer.digitLimit Json.depthLimit (.obj config.toFields)) :
    Json.IsWhole config.chunks (Json.chars .indented 0 (.obj config.toFields)) := by
  cases h with
  | obj distinct names storable =>
    cases config with
    | nil =>
      rw [chunks, toFields, List.map_nil, Json.chars]
      exact Json.isWhole_singleton _
    | cons e others =>
      obtain ⟨he, hothers⟩ := List.forall_mem_cons.1 hnames
      rw [toFields_cons] at storable ⊢
      obtain ⟨hvalue, hvalues⟩ := List.forall_mem_cons.1 storable
      -- the first field has no comma in front of it
      have hfirst := Json.isWhole_field e.1.written (hvalue.writes .indented) 1 []
      have hrest := Json.isWhole_fieldChunks (fun f hf => (hvalues f hf).writes .indented) 1
      have hclose := Json.isWhole_singleton (Json.Layout.newline .indented 0 ++ ['\x7d'])
      have hall := ((hfirst.append hrest).append hclose).cons
        ('\x7b' :: Json.Layout.newline .indented 1)
      rw [chunks, flatMap_entryChunks hothers, entryChunks, if_pos he, Json.chars]
      simp only [List.append_assoc, List.nil_append, List.cons_append] at hall ⊢
      exact hall

theorem isWritable_of_storable (hnames : ∀ e ∈ config, e.1.isWritable = true)
    (h : Json.Storable Text.Integer.digitLimit Json.depthLimit (.obj config.toFields)) :
    config.IsWritable := (isWhole_chunks hnames h).stop?

theorem written_of_storable (hnames : ∀ e ∈ config, e.1.isWritable = true)
    (h : Json.Storable Text.Integer.digitLimit Json.depthLimit (.obj config.toFields)) :
    config.written = (Json.obj config.toFields).pretty :=
  congrArg String.ofList (isWhole_chunks hnames h).written

theorem stop?_of_isWritable (h : config.IsWritable) :
    ∀ e ∈ config, Json.stop? (Json.chunks .indented 1 (Json.depthLimit - 1) [] e.2) = none := by
  have hentry : ∀ {front : List Char} {e : Name × Json},
      Json.stop? (entryChunks front e.1 e.2) = none →
        Json.stop? (Json.chunks .indented 1 (Json.depthLimit - 1) [] e.2) = none :=
    fun {_ _} hstop => (@Json.stop?_append_eq_none [_, _] _ hstop).2
  cases config with
  | nil => nofun
  | cons first others =>
    unfold IsWritable at h
    rw [chunks] at h
    obtain ⟨hall, -⟩ := Json.stop?_append_eq_none h
    obtain ⟨hfirst, hothers⟩ := Json.stop?_append_eq_none hall
    intro e he
    rcases List.mem_cons.1 he with rfl | hmem
    · exact hentry (@Json.stop?_append_eq_none [_] _ hfirst).2
    · apply hentry
      exact List.findSome?_eq_none_iff.2 fun c hc =>
        List.findSome?_eq_none_iff.1 hothers c (List.mem_flatMap.2 ⟨e, hmem, hc⟩)

/-- What is written to its end can be read again, if it is storable at all. -/
theorem storable_of_isWritable {digits deep : Nat}
    (h : Json.Storable digits deep (.obj config.toFields)) (hwritable : config.IsWritable) :
    Json.Storable Text.Integer.digitLimit Json.depthLimit (.obj config.toFields) := by
  cases h with
  | obj distinct names storable =>
    apply Json.Storable.obj distinct names
    intro f hf
    have hvalue := storable f hf
    obtain ⟨e, he, rfl⟩ := List.mem_map.1 hf
    exact hvalue.of_stop? (stop?_of_isWritable hwritable e he)

theorem isWritable_of_mem_ofFields : ∀ e ∈ ofFields fields, e.1.isWritable = true := by
  intro e he
  obtain ⟨f, -, rfl⟩ := List.mem_map.1 he
  rfl

/-! ## Files -/

variable {tree : Tree} {path : String}

theorem check_eq_error_iff {e : Fault} :
    config.check = .error e ↔ ∃ invalid, config.fault? = some invalid ∧ e = .config invalid := by
  unfold check
  cases config.fault? with
  | none => simp
  | some invalid => simp [eq_comm]

/-- A configuration that is not valid is not saved: the tree stays as it is. -/
theorem save_of_check {e : Fault} (h : config.check = .error e) (tree : Tree) (path : String) :
    config.save tree path = (tree, some e) := by
  obtain ⟨invalid, hfault, rfl⟩ := check_eq_error_iff.1 h
  rw [save, hfault]

theorem save_of_valid (h : config.Valid) :
    config.save tree path = match tree.makeWay path with
      | (tree, some e) => (tree, some (.file e))
      | (tree, none) =>
        match tree.writeText path config.written with
        | .ok tree => (tree, (Json.stop? config.chunks).map .ofWriteError)
        | .error e => (tree, some (.file e)) := by
  rw [save, Option.isNone_iff_eq_none.1 h]
  rfl

/-- The tree in which a configuration has been saved: the way to the file, and the file itself, as far
as it is written. -/
theorem save_eq_put (hvalid : config.Valid) (hway : (tree.makeWay path).2 = none)
    {place : Files.Place} (hplace : Tree.LeadsTo (tree.makeWay path).1 path place) :
    config.save tree path = ((tree.makeWay path).1.put place (.file config.written.toUTF8),
      (Json.stop? config.chunks).map .ofWriteError) := by
  rw [save_of_valid hvalid, ← Prod.eta (tree.makeWay path), hway]
  dsimp only
  rw [Tree.writeText, Tree.write_of_leadsTo hplace]

/-- A configuration is saved if it is valid and its text can be written, and so can a file. -/
theorem save_eq_none_iff : (config.save tree path).2 = none ↔
    config.Valid ∧ config.IsWritable ∧ tree.AcceptsFile path := by
  constructor
  · intro h
    have hvalid : config.Valid := by
      unfold Valid
      cases hfault : config.fault? with
      | none => rfl
      | some e =>
        rw [save_of_check (check_eq_error_iff.2 ⟨e, hfault, rfl⟩)] at h
        contradiction
    -- the way is made, the file is written, and the text does not stop
    rw [save_of_valid hvalid] at h
    unfold Tree.AcceptsFile
    split at h
    · contradiction
    · rename_i made hway
      rw [hway]
      split at h
      · rename_i saved hwrite
        exact ⟨hvalid, Option.map_eq_none_iff.1 h, rfl, Tree.leadsTo_of_write hwrite⟩
      · contradiction
  · rintro ⟨hvalid, hwritable, hway, place, hplace⟩
    rw [save_eq_put hvalid hway hplace]
    exact Option.map_eq_none_iff.2 hwritable

theorem read_pretty (h : Json.Storable Text.Integer.digitLimit Json.depthLimit (.obj fields)) :
    Json.read (Json.obj fields).pretty = .ok (.obj fields) := by
  rw [Json.read, Json.readWhole, Json.pretty, String.toList_ofList, Json.readWithin_chars h]

/-- The text of a configuration is loaded as the same configuration. -/
theorem ofText_pretty (hvalid : (ofFields fields).Valid)
    (hstorable : Json.Storable Text.Integer.digitLimit Json.depthLimit (.obj fields)) :
    ∃ loaded, ofText (Json.obj fields).pretty = .ok loaded ∧
      ∀ name, loaded.get? name = (ofFields fields).get? name := by
  have hread := read_pretty hstorable
  cases hstorable with
  | obj distinct names storable =>
    have hget := get?_overlaid hvalid (nodup_ofFields distinct)
    refine ⟨defaults.putAll (ofFields fields), ?_, hget⟩
    have hfault : (defaults.putAll (ofFields fields)).fault? = none := by
      rw [fault?_congr fun key => hget _]
      exact Option.isNone_iff_eq_none.1 hvalid
    rw [ofText, hread]
    show check _ = _
    rw [check, hfault]

/-- If a valid configuration is not saved, no file is touched. The system met a reason why not, or the
path holds what none may hold. -/
theorem exists_save_failure (hvalid : config.Valid) (hpath : ¬ tree.AcceptsFile path) :
    ∃ e made, config.save tree path = (made, some (.file e)) ∧ Tree.Extends tree made ∧
      (Files.hasNul (.whole path) = false → Tree.IsMet e) := by
  have hextends : Tree.Extends tree (tree.makeWay path).1 := by
    unfold Tree.makeWay
    split
    · exact .refl tree
    · exact Tree.extends_ensureDirectories tree _
  -- the way to the file cannot be made, or the file cannot be written
  rw [save_of_valid hvalid]
  split
  · rename_i made e hway
    rw [hway] at hextends
    refine ⟨e, made, rfl, hextends, fun hnul => ?_⟩
    unfold Tree.makeWay at hway
    split at hway
    · cases hway
    · apply Tree.isMet_of_ensureDirectoriesWithin Tree.depthLimit tree
        (Tree.isPlainPath_whole hnul).split.1
      rw [← Tree.ensureDirectories, ← Files.directoryOf, hway]
  · rename_i made hway
    rw [hway] at hextends
    split
    · rename_i written hwrite
      refine absurd ⟨?_, ?_⟩ hpath
      · rw [hway]
      · rw [hway]
        exact Tree.leadsTo_of_write hwrite
    · rename_i e hwrite
      exact ⟨e, made, rfl, hextends,
        fun hnul => Tree.isMet_of_write (Tree.isPlainPath_whole hnul) hwrite⟩

/-- If the text of a valid configuration cannot be written to its end, its file is spoiled. -/
theorem exists_save_unwritable (hvalid : config.Valid) (hpath : tree.AcceptsFile path)
    {e : Json.WriteError} (h : Json.stop? config.chunks = some e) :
    ∃ place, config.save tree path =
      ((tree.makeWay path).1.put place (.file config.written.toUTF8), some (.ofWriteError e)) := by
  obtain ⟨hway, place, hplace⟩ := hpath
  have hsave := save_eq_put hvalid hway hplace
  rw [h] at hsave
  exact ⟨place, hsave⟩

/-- The file of a configuration that is saved holds its text. -/
theorem exists_readText_of_save (hvalid : config.Valid)
    (hnames : ∀ e ∈ config, e.1.isWritable = true)
    (hstorable : Json.Storable Text.Integer.digitLimit Json.depthLimit (.obj config.toFields))
    (hpath : tree.AcceptsFile path) :
    ∃ saved, config.save tree path = (saved, none) ∧ saved.exists? path = true ∧
      saved.readText path = .ok (Json.obj config.toFields).pretty := by
  obtain ⟨hway, place, hplace⟩ := hpath
  have hsave := save_eq_put hvalid hway hplace
  rw [isWritable_of_storable hnames hstorable, written_of_storable hnames hstorable] at hsave
  refine ⟨_, hsave, ?_⟩
  -- the path leads to the file that has been written
  generalize hbytes : (Json.obj config.toFields).pretty.toUTF8 = bytes
  have hleads := hplace.of_same (hplace.sameDirectories_put bytes)
  have hfile : ((tree.makeWay path).1.put place (.file bytes)).find? place =
      some (.file bytes) := by
    rw [hplace.find?_put, if_pos rfl]
  have hread := hleads.readBytes hfile
  rw [← hbytes] at hread
  have htext := Tree.readText_of_readBytes hread hstorable.return_not_mem_pretty
  rw [hbytes] at htext
  exact ⟨hleads.exists? hfile, htext⟩

/-- A configuration that is saved is in its file, by the names that its entries have there. -/
theorem load_of_save (hvalid : config.Valid) (hwritten : (ofFields config.toFields).Valid)
    (hnames : ∀ e ∈ config, e.1.isWritable = true)
    (hstorable : Json.Storable Text.Integer.digitLimit Json.depthLimit (.obj config.toFields))
    (hpath : tree.AcceptsFile path) :
    ∃ saved loaded, config.save tree path = (saved, none) ∧ load saved path = .ok loaded ∧
      ∀ name, loaded.get? name = (ofFields config.toFields).get? name := by
  obtain ⟨saved, hsaved, hexists, htext⟩ := exists_readText_of_save hvalid hnames hstorable hpath
  obtain ⟨loaded, hloaded, hget⟩ := ofText_pretty hwritten hstorable
  refine ⟨saved, loaded, hsaved, ?_, hget⟩
  unfold load
  rw [hexists, htext]
  exact hloaded

/-- The file at a path holds a configuration: that is what its text says, and it is loaded with every
entry and no other. -/
def IsHeldAt (config : Config) (files : Tree) (path : String) : Prop :=
  (∃ text, files.readText path = .ok text ∧ Json.read text = .ok (.obj config.toFields)) ∧
    ∃ loaded, load files path = .ok loaded ∧ ∀ name, loaded.get? name = config.get? name

/-- The file of a configuration that has been saved holds it, if its values can be stored at all. -/
theorem isHeldAt_of_save {files : Tree} (hnames : ofFields config.toFields = config)
    {digits deep : Nat} (hvalues : Json.Storable digits deep (.obj config.toFields))
    (h : config.save tree path = (files, none)) : config.IsHeldAt files path := by
  obtain ⟨hvalid, hwhole, hpath⟩ := save_eq_none_iff.1 (congrArg Prod.snd h)
  have hstorable := storable_of_isWritable hvalues hwhole
  have hwritable : ∀ e ∈ config, e.1.isWritable = true := by
    rw [← hnames]
    exact isWritable_of_mem_ofFields
  have hfiles : ∀ {saved}, config.save tree path = (saved, none) → saved = files := by
    intro saved hsaved
    rw [hsaved] at h
    exact congrArg Prod.fst h
  obtain ⟨saved, hsaved, -, htext⟩ := exists_readText_of_save hvalid hwritable hstorable hpath
  obtain ⟨saved', loaded, hsaved', hloaded, hget⟩ :=
    load_of_save hvalid (by rw [hnames]; exact hvalid) hwritable hstorable hpath
  obtain rfl := hfiles hsaved
  obtain rfl := hfiles hsaved'
  rw [hnames] at hget
  exact ⟨⟨_, htext, read_pretty hstorable⟩, loaded, hloaded, hget⟩

theorem readable_default (key : Key) (depth : Nat) :
    Json.Readable Text.Integer.digitLimit depth key.default := by
  have hdigits : ∀ n ∈ [2000, 5000, 500, 7], (Nat.toDigits 10 n).length ≤ Text.Integer.digitLimit := by
    decide
  simp only [List.forall_mem_cons] at hdigits
  obtain ⟨hhistory, hsteps, hinterval, hwindow, -⟩ := hdigits
  cases key with
  | maxHistory => exact .int hhistory
  | maxBatchSteps => exact .int hsteps
  | playInterval => exact .int hinterval
  | tapeWindow => exact .int hwindow
  | _ => exact .str (Json.settled_whole _)

/-- The settings as they are if nothing else is said, with further entries. -/
def settingsWith (others : List (String × Json)) : List (String × Json) :=
  (Key.all.map fun key => (key.name, key.default)) ++ others

theorem storable_settingsWith {others : List (String × Json)}
    (hdistinct : ((settingsWith others).map (·.1)).Nodup)
    (hothers : ∀ f ∈ others, Json.Readable Text.Integer.digitLimit 986 f.2) :
    Json.Storable Text.Integer.digitLimit Json.depthLimit
      (.obj ((settingsWith others).map fun f => (Loose.whole f.1, f.2))) := by
  have hreadable : ∀ f ∈ settingsWith others, Json.Readable Text.Integer.digitLimit 986 f.2 := by
    intro f hf
    rcases List.mem_append.1 hf with hf | hf
    · obtain ⟨key, -, rfl⟩ := List.mem_map.1 hf
      exact readable_default key 986
    · exact hothers f hf
  exact (Json.Readable.ofNames hdistinct hreadable).storable

/-- The settings with further entries of every kind. -/
def noted : List (String × Json) :=
  settingsWith [("note", .str "\"π\"\n😀"),
    ("list", .arr [.null, .bool true, .int (-12345678901234567890), .arr []]),
    ("table", .obj [("", .obj []), ("b", .str "")])]

/-- The entries as fields. -/
def notedFields : Json.Fields := noted.map fun f => (Loose.whole f.1, f.2)

theorem storable_noted :
    Json.Storable Text.Integer.digitLimit Json.depthLimit (.obj notedFields) := by
  have hlong : (Nat.toDigits 10 12345678901234567890).length ≤ Text.Integer.digitLimit := by decide
  have hlist : ∀ item ∈ [Json.null, .bool true, .int (-12345678901234567890), .arr []],
      Json.Readable Text.Integer.digitLimit 985 item := by
    simp only [List.forall_mem_cons]
    exact ⟨.null, .bool true, .int hlong, .arr nofun, nofun⟩
  have htable : ∀ f ∈ [("", Json.obj []), ("b", .str "")],
      Json.Readable Text.Integer.digitLimit 985 f.2 := by
    simp only [List.forall_mem_cons]
    exact ⟨.obj .nil nofun nofun, .str (Json.settled_whole ""), nofun⟩
  apply storable_settingsWith
  · decide
  · simp only [List.forall_mem_cons]
    exact ⟨.str (Json.settled_whole _), .arr hlist, .ofNames (by decide) htable, nofun⟩

end Config

end TapeMachine
