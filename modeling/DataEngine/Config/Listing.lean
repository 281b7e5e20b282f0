import DataEngine.Config.Template

/-!
The order in which the directories of the configuration are listed.

All that is read of the tasks, the devices and the transmits are entries: a value of a type under
a name. Entries of different names or types can be kept in any order, so the order of files and
directories shows only where two of them have one name, or where one ends the reading.
-/

namespace DataEngine.ConfigParse

open Json Lib.Effect

variable {R : Type}

/-! ### Entries -/

/-- A value of a type under a name. -/
abbrev Item (R : Type) : Type := String × CfgType × Value R

/-- `m[name][type] = v`, for one entry after the other. -/
def keep (m : Map String (Map CfgType (Value R))) (items : List (Item R)) :
    Map String (Map CfgType (Value R)) :=
  items.foldl (fun m i => setCfg m i.1 i.2.1 i.2.2) m

lemma keep_append (m : Map String (Map CfgType (Value R))) (is js : List (Item R)) :
    keep m (is ++ js) = keep (keep m is) js := List.foldl_append

lemma setCfg_comm (m : Map String (Map CfgType (Value R))) {i j : Item R}
    (h : i.1 = j.1 → i.2.1 ≠ j.2.1) :
    setCfg (setCfg m i.1 i.2.1 i.2.2) j.1 j.2.1 j.2.2 =
      setCfg (setCfg m j.1 j.2.1 j.2.2) i.1 i.2.1 i.2.2 := by
  obtain ⟨name, type, v⟩ := i
  obtain ⟨name', type', v'⟩ := j
  refine Std.ExtTreeMap.ext_getElem? fun k => ?_
  simp only [setCfg, Map.getElem?_insert]
  by_cases hname : name = name'
  · subst hname
    have htype : type ≠ type' := h rfl
    by_cases hk : k = name
    · simp only [hk, if_true, Option.getD_some, Option.some.injEq]
      refine Std.ExtTreeMap.ext_getElem? fun t => ?_
      simp only [Map.getElem?_insert]
      by_cases ht : t = type
      · subst ht
        simp [htype]
      · simp [ht]
    · simp [hk]
  · by_cases hk : k = name
    · subst hk
      simp [hname]
    · by_cases hk' : k = name'
      · subst hk'
        simp [Ne.symm hname]
      · simp [hk, hk']

/-- Entries of one name and type are the same. -/
def Consistent (items : List (Item R)) : Prop :=
  ∀ i ∈ items, ∀ j ∈ items, i.1 = j.1 → i.2.1 = j.2.1 → i = j

/-- Then their order does not matter. -/
lemma keep_perm {is js : List (Item R)} (hperm : is.Perm js) (h : Consistent is)
    (m : Map String (Map CfgType (Value R))) : keep m is = keep m js := by
  refine hperm.foldl_eq' (fun i hi j hj m => ?_) m
  by_cases hij : i.1 = j.1 ∧ i.2.1 = j.2.1
  · obtain rfl := h i hi j hj hij.1 hij.2
    rfl
  · exact setCfg_comm m fun hname htype => hij ⟨hname, htype⟩

/-! ### Stores -/

/-- The entry a file of a store makes. -/
def fileItem (dirName : String) (f : File R) : Option (Item R) :=
  if f.skipped then none
  else if f.subName = "PointTable.json" then f.value.map fun v => (dirName, .pointTable, v)
  else if f.subName = "Protocol.json" then f.value.map fun v => (dirName, .protocol, v)
  else none

/-- The entries a directory of a store makes. -/
def dirItems (d : StoreDir R) : List (Item R) :=
  if d.fType = .dir then (d.files.getD []).filterMap (fileItem d.subName) else []

lemma parseStoreFile_eq (dirName : String) (m : Map String (Map CfgType (Value R))) (f : File R) :
    parseStoreFile dirName m f = keep m (fileItem dirName f).toList := by
  unfold parseStoreFile fileItem
  by_cases hskip : f.skipped = true
  · simp [hskip, keep]
  · rw [if_neg hskip, if_neg hskip]
    rcases f.value with _ | v
    · split_ifs <;> rfl
    · split_ifs <;> rfl

lemma foldl_parseStoreFile (dirName : String) (m : Map String (Map CfgType (Value R)))
    (files : List (File R)) :
    files.foldl (parseStoreFile dirName) m = keep m (files.filterMap (fileItem dirName)) := by
  induction files generalizing m with
  | nil => rfl
  | cons f files ih =>
    rw [List.foldl_cons, ih, parseStoreFile_eq, List.filterMap_cons]
    rcases fileItem dirName f with _ | i <;> rfl

/-- Every directory can be opened, and no two entries of one directory have one name. -/
structure StoreTidy (ds : List (StoreDir R)) : Prop where
  opened : ∀ d ∈ ds, d.fType = .dir → d.files ≠ none
  dirs : (ds.map StoreDir.subName).Nodup
  files : ∀ d ∈ ds, ∀ files, d.files = some files → (files.map File.subName).Nodup

/-- A store whose directories can be opened is read to its end. -/
lemma parseStore_eq {ds : List (StoreDir R)} (h : ∀ d ∈ ds, d.fType = .dir → d.files ≠ none)
    (m : Map String (Map CfgType (Value R))) :
    parseStore m ds = keep m (ds.flatMap dirItems) := by
  induction ds generalizing m with
  | nil => rfl
  | cons d ds ih =>
    obtain ⟨hd, hds⟩ := List.forall_mem_cons.mp h
    rw [List.flatMap_cons, keep_append]
    unfold parseStore
    rcases htype : d.fType with _ | _ | _
    · obtain ⟨files, hfiles⟩ := Option.ne_none_iff_exists'.mp (hd htype)
      simp only [hfiles]
      rw [ih hds, foldl_parseStoreFile, dirItems, if_pos htype, hfiles]
      rfl
    all_goals
      simp only
      rw [ih hds, dirItems, if_neg (by simp [htype])]
      rfl

lemma mem_dirItems {d : StoreDir R} {i : Item R} (h : i ∈ dirItems d) :
    i.1 = d.subName ∧ ∃ files, d.files = some files ∧ ∃ f ∈ files, f.value = some i.2.2 ∧
      (f.subName = "PointTable.json" ∧ i.2.1 = .pointTable ∨
        f.subName = "Protocol.json" ∧ i.2.1 = .protocol) := by
  unfold dirItems at h
  split_ifs at h
  · obtain ⟨f, hf, hi⟩ := List.mem_filterMap.mp h
    rcases hfiles : d.files with _ | files
    · simp [hfiles] at hf
    rw [hfiles] at hf
    unfold fileItem at hi
    split_ifs at hi with _ hpoint hprot
    · obtain ⟨v, hv, rfl⟩ := Option.map_eq_some_iff.mp hi
      exact ⟨rfl, files, rfl, f, hf, hv, .inl ⟨hpoint, rfl⟩⟩
    · obtain ⟨v, hv, rfl⟩ := Option.map_eq_some_iff.mp hi
      exact ⟨rfl, files, rfl, f, hf, hv, .inr ⟨hprot, rfl⟩⟩
  · simp at h

lemma StoreTidy.consistent {ds : List (StoreDir R)} (h : StoreTidy ds) :
    Consistent (ds.flatMap dirItems) := by
  rintro ⟨name, type, v⟩ hi ⟨_, _, w⟩ hj rfl rfl
  obtain ⟨d, hd, hi⟩ := List.mem_flatMap.mp hi
  obtain ⟨e, he, hj⟩ := List.mem_flatMap.mp hj
  obtain ⟨hdname, files, hfiles, f, hf, hv, hftype⟩ := mem_dirItems hi
  obtain ⟨hename, files', hfiles', g, hg, hw, hgtype⟩ := mem_dirItems hj
  obtain rfl : d = e := List.inj_on_of_nodup_map h.dirs hd he (hdname.symm.trans hename)
  obtain rfl := Option.some.inj (hfiles.symm.trans hfiles')
  have hsame : f.subName = g.subName := by
    rcases hftype with ⟨hf', ht⟩ | ⟨hf', ht⟩ <;> rcases hgtype with ⟨hg', ht'⟩ | ⟨hg', ht'⟩
    · rw [hf', hg']
    · cases ht.symm.trans ht'
    · cases ht.symm.trans ht'
    · rw [hf', hg']
  obtain rfl := List.inj_on_of_nodup_map (h.files d hd files hfiles) hf hg hsame
  obtain rfl := Option.some.inj (hv.symm.trans hw)
  rfl

/-- A directory with its files in another order -/
structure SameDir (d e : StoreDir R) : Prop where
  subName : e.subName = d.subName
  fType : e.fType = d.fType
  files : Option.Rel List.Perm d.files e.files

/-- The store lists its directories in another order, and these list their files in another. -/
def StoreRelisted (ds ds' : List (StoreDir R)) : Prop :=
  ∃ es, List.Forall₂ SameDir ds es ∧ es.Perm ds'

lemma SameDir.perm {d e : StoreDir R} (h : SameDir d e) : (dirItems d).Perm (dirItems e) := by
  unfold dirItems
  rw [h.fType, h.subName]
  split_ifs
  · have hfiles := h.files
    generalize d.files = xs at hfiles
    generalize e.files = ys at hfiles
    cases hfiles with
    | none => exact .refl _
    | some hperm => exact hperm.filterMap _
  · exact .refl _

lemma StoreRelisted.perm {ds ds' : List (StoreDir R)} (h : StoreRelisted ds ds') :
    (ds.flatMap dirItems).Perm (ds'.flatMap dirItems) := by
  obtain ⟨es, hsame, hperm⟩ := h
  refine List.Perm.trans ?_ (hperm.flatMap_right dirItems)
  induction hsame generalizing ds' with
  | nil => exact .nil
  | cons hd _ ih =>
    rw [List.flatMap_cons, List.flatMap_cons]
    exact hd.perm.append (ih (.refl _))

lemma StoreRelisted.opened {ds ds' : List (StoreDir R)} (h : StoreRelisted ds ds')
    (hopened : ∀ d ∈ ds, d.fType = .dir → d.files ≠ none) :
    ∀ d ∈ ds', d.fType = .dir → d.files ≠ none := by
  obtain ⟨es, hsame, hperm⟩ := h
  have hes : ∀ e ∈ es, e.fType = .dir → e.files ≠ none := by
    clear hperm
    induction hsame with
    | nil => simp
    | @cons d e ds es hd _ ih =>
      obtain ⟨hopen, hrest⟩ := List.forall_mem_cons.mp hopened
      refine List.forall_mem_cons.mpr ⟨fun htype hnone => ?_, ih hrest⟩
      have hfiles := hd.files
      rw [hnone] at hfiles
      refine hopen (hd.fType ▸ htype) ?_
      rcases hdf : d.files with _ | files
      · rfl
      · rw [hdf] at hfiles
        cases hfiles
  exact fun e he => hes e (hperm.mem_iff.mpr he)

/-- **A store** reads the same in any order. -/
lemma StoreTidy.parseStore_eq {ds ds' : List (StoreDir R)} (h : StoreTidy ds)
    (hrelisted : StoreRelisted ds ds') (m : Map String (Map CfgType (Value R))) :
    parseStore m ds' = parseStore m ds := by
  rw [ConfigParse.parseStore_eq h.opened, ConfigParse.parseStore_eq (hrelisted.opened h.opened),
    keep_perm hrelisted.perm h.consistent]

/-! ### Tasks -/

section Tasks

variable [Double R]

/-- The entries the file of a task makes. -/
def taskItems (f : File R) : Except Fault (List (Item R)) :=
  if f.skipped then .ok []
  else
    match f.value with
    | none => .ok []
    | some cfgTask => do
      if !(← (← cfgTask.member "enable").asBool) then .ok []
      else
        let name ← (← cfgTask.member "name").asString
        let param ← cfgTask.member "param"
        let cfgTaskAttr ← param.member "attribute"
        let cfgChannel ← param.member "channel"
        .ok [(name, .attribute, cfgTaskAttr), (name, .channel, cfgChannel)]

/-- The name of the task in a file, if it is enabled. -/
def enabledName (f : File R) : Option String :=
  match taskItems f with
  | .ok (i :: _) => some i.1
  | _ => none

lemma parseTaskFile_eq (m : Map String (Map CfgType (Value R))) (f : File R) :
    parseTaskFile m f = keep m <$> taskItems f := by
  unfold parseTaskFile taskItems
  by_cases hskip : f.skipped = true
  · rw [if_pos hskip, if_pos hskip]
    rfl
  rw [if_neg hskip, if_neg hskip]
  rcases f.value with _ | cfgTask
  · rfl
  simp only [bind, Except.bind]
  rcases cfgTask.member "enable" with e | enable
  · rfl
  simp only
  rcases enable.asBool with e | bEnable
  · rfl
  cases bEnable with
  | false => rfl
  | true =>
    simp only [Bool.not_true, Bool.false_eq_true, if_false]
    rcases cfgTask.member "name" with e | name
    · rfl
    simp only
    rcases name.asString with e | name
    · rfl
    simp only
    rcases cfgTask.member "param" with e | param
    · rfl
    simp only
    rcases param.member "attribute" with e | attr
    · rfl
    simp only
    rcases param.member "channel" with e | channel <;> rfl

omit [Double R] in
/-- An access to a value that fails says so in one way. -/
lemma member_error {v : Value R} {key : String} {e : Fault} (h : v.member key = .error e) :
    e = .logicError := by
  unfold Value.member at h
  split_ifs at h
  exact (Except.error.inj h).symm

lemma asString_error {v : Value R} {e : Fault} (h : v.asString = .error e) : e = .logicError := by
  cases v <;> simp [Value.asString] at h <;> exact h.symm

lemma asBool_error {v : Value R} {e : Fault} (h : v.asBool = .error e) : e = .logicError := by
  cases v <;> simp [Value.asBool] at h <;> exact h.symm

lemma taskItems_error {f : File R} {e : Fault} (h : taskItems f = .error e) : e = .logicError := by
  unfold taskItems at h
  split_ifs at h
  split at h
  · cases h
  · obtain h | ⟨enable, -, h⟩ := bind_eq_error.mp h
    · exact member_error h
    obtain h | ⟨bEnable, -, h⟩ := bind_eq_error.mp h
    · exact asBool_error h
    split_ifs at h
    obtain h | ⟨name, -, h⟩ := bind_eq_error.mp h
    · exact member_error h
    obtain h | ⟨name, -, h⟩ := bind_eq_error.mp h
    · exact asString_error h
    obtain h | ⟨param, -, h⟩ := bind_eq_error.mp h
    · exact member_error h
    obtain h | ⟨attr, -, h⟩ := bind_eq_error.mp h
    · exact member_error h
    obtain h | ⟨channel, -, h⟩ := bind_eq_error.mp h
    · exact member_error h
    · cases h

/-- The tasks that are enabled have different names. -/
def TasksTidy (files : List (File R)) : Prop :=
  files.Pairwise fun f g => ∀ name, enabledName f = some name → enabledName g ≠ some name

lemma taskItems_eq {f : File R} {items : List (Item R)} (h : taskItems f = .ok items) :
    items = [] ∨ ∃ name attr channel,
      items = [(name, .attribute, attr), (name, .channel, channel)] := by
  unfold taskItems at h
  split_ifs at h
  · exact .inl (Except.ok.inj h).symm
  split at h
  · exact .inl (Except.ok.inj h).symm
  · obtain ⟨_, -, h⟩ := bind_eq_ok.mp h
    obtain ⟨_, -, h⟩ := bind_eq_ok.mp h
    split_ifs at h
    · exact .inl (Except.ok.inj h).symm
    · obtain ⟨_, -, h⟩ := bind_eq_ok.mp h
      obtain ⟨name, -, h⟩ := bind_eq_ok.mp h
      obtain ⟨_, -, h⟩ := bind_eq_ok.mp h
      obtain ⟨attr, -, h⟩ := bind_eq_ok.mp h
      obtain ⟨channel, -, h⟩ := bind_eq_ok.mp h
      exact .inr ⟨name, attr, channel, (Except.ok.inj h).symm⟩

lemma TasksTidy.consistent {files : List (File R)} (h : TasksTidy files)
    {itemss : List (List (Item R))} (hitems : files.mapM taskItems = .ok itemss) :
    Consistent itemss.flatten := by
  intro i hi j hj hname htype
  obtain ⟨is, his, hi⟩ := List.mem_flatten.mp hi
  obtain ⟨js, hjs, hj⟩ := List.mem_flatten.mp hj
  obtain ⟨f, hf, hfis⟩ := (mem_of_mapM hitems).mp his
  obtain ⟨g, hg, hgjs⟩ := (mem_of_mapM hitems).mp hjs
  obtain rfl | ⟨name, attr, channel, rfl⟩ := taskItems_eq hfis
  · simp at hi
  obtain rfl | ⟨name', attr', channel', rfl⟩ := taskItems_eq hgjs
  · simp at hj
  have hi' : i.1 = name := by
    simp only [List.mem_cons, List.not_mem_nil, or_false] at hi
    rcases hi with rfl | rfl <;> rfl
  have hj' : j.1 = name' := by
    simp only [List.mem_cons, List.not_mem_nil, or_false] at hj
    rcases hj with rfl | rfl <;> rfl
  have hsame : f = g := by
    by_contra hne
    have : Std.Symm fun f g : File R =>
        ∀ name, enabledName f = some name → enabledName g ≠ some name :=
      ⟨fun _ _ hfg name hg hf => hfg name hf hg⟩
    refine List.Pairwise.forall h hf hg hne name ?_ ?_
    · simp [enabledName, hfis]
    · simp [enabledName, hgjs, ← hi', hname, hj']
  subst hsame
  obtain heq := Except.ok.inj (hfis.symm.trans hgjs)
  cases heq
  simp only [List.mem_cons, List.not_mem_nil, or_false] at hi hj
  rcases hi with rfl | rfl <;> rcases hj with rfl | rfl
  · rfl
  · cases htype
  · cases htype
  · rfl

/-- The tasks are kept one after the other. -/
lemma parseTask_items (root : Root R) : parseTask root =
    (fun itemss => keep ∅ itemss.flatten) <$> root.taskCfg.mapM taskItems := by
  have hfold (itemss : List (List (Item R))) (m : Map String (Map CfgType (Value R))) :
      itemss.foldl keep m = keep m itemss.flatten := by
    induction itemss generalizing m with
    | nil => rfl
    | cons items itemss ih => rw [List.foldl_cons, ih, List.flatten_cons, keep_append]
  unfold parseTask
  have heach : (parseTaskFile : _ → File R → _) = fun m f => keep m <$> taskItems f :=
    funext fun m => funext fun f => parseTaskFile_eq m f
  rw [heach, foldlM_map_eq]
  simp only [hfold]

/-- **The tasks** read the same in any order. -/
lemma parseTask_eq {root root' : Root R} (h : TasksTidy root.taskCfg)
    (hperm : root.taskCfg.Perm root'.taskCfg) : parseTask root' = parseTask root := by
  rw [parseTask_items, parseTask_items]
  obtain ⟨h₁, h₂⟩ | ⟨is, js, h₁, h₂, hitems⟩ :=
    mapM_perm (f := (taskItems : File R → _)) (fun _ _ => taskItems_error) hperm
  · rw [h₁, h₂]
  · rw [h₁, h₂]
    exact congrArg Except.ok (keep_perm hitems.flatten (h.consistent h₁) ∅).symm

end Tasks

/-! ### Templates -/

/-- No name stands for nothing. -/
def Filled (m : Map String (Map CfgType (Value R))) : Prop :=
  ∀ (name : String) types, m[name]? = some types → ∃ (type : CfgType) (v : Value R),
    types[type]? = some v

lemma filled_setCfg {m : Map String (Map CfgType (Value R))} (h : Filled m) (name : String)
    (type : CfgType) (v : Value R) : Filled (setCfg m name type v) := by
  intro name' types htypes
  rw [setCfg, Map.getElem?_insert] at htypes
  split_ifs at htypes
  · obtain rfl := Option.some.inj htypes
    exact ⟨type, v, by rw [Map.getElem?_insert, if_pos rfl]⟩
  · exact h name' types htypes

/-- What is kept says all of a map in which no name stands for nothing. -/
lemma ext_entry {m m' : Map String (Map CfgType (Value R))} (h : Filled m) (h' : Filled m')
    (hentry : ∀ name type, entry m name type = entry m' name type) : m = m' := by
  refine Std.ExtTreeMap.ext_getElem? fun name => ?_
  have hname := hentry name
  simp only [entry] at hname
  rcases hm : m[name]? with _ | types
  · rcases hm' : m'[name]? with _ | types'
    · rfl
    · obtain ⟨type, v, hv⟩ := h' name types' hm'
      have htype := hname type
      simp [hm, hm', hv] at htype
  · rcases hm' : m'[name]? with _ | types'
    · obtain ⟨type, v, hv⟩ := h name types hm
      have htype := hname type
      simp [hm, hm', hv] at htype
    · simp only [hm, hm', Option.bind_some] at hname
      exact congrArg some (Std.ExtTreeMap.ext_getElem? fun {type} => hname type)

variable [Double R]

lemma filled_parseTemplate {root : Root R} {m : Map String (Map CfgType (Value R))}
    (h : parseTemplate root = .ok m) : Filled m := by
  refine foldlM_inv (fun m type m' hm h => ?_) (fun name types htypes => ?_) h
  · rw [parseTemplateFiles_eq] at h
    rcases hts : templates (root.template type) with e | ts
    · rw [hts] at h
      cases h
    rw [hts] at h
    obtain rfl := Except.ok.inj h
    clear h hts
    induction ts generalizing m with
    | nil => exact hm
    | cons t ts ih => exact ih _ (filled_setCfg hm t.1 type t.2)
  · simp at htypes

/-- **The templates** read the same in any order, if nothing is lost in reading them. -/
lemma parseTemplate_eq {root root' : Root R} (hdistinct : ∀ type, Distinct (root.template type))
    (hlossless : ∀ type, Lossless (root.template type)) (h : Relisted root root') :
    parseTemplate root' = parseTemplate root := by
  have hcomplete {root' : Root R} (h : Relisted root root') :
      ∃ m, parseTemplate root' = .ok m ∧ Loaded root m :=
    loaded_iff.mpr fun type => (hlossless type).complete (hdistinct type) (h type)
  obtain ⟨m, hm, hloaded⟩ := hcomplete fun type => .refl _
  obtain ⟨m', hm', hloaded'⟩ := hcomplete h
  rw [hm, hm', ext_entry (filled_parseTemplate hm') (filled_parseTemplate hm) fun name type => ?_]
  refine Option.ext fun v => ?_
  rw [hloaded' type name v, hloaded type name v]

/-! ### The whole configuration -/

/-- What makes the order of the listings not matter: no name is given twice in one place, every
directory of a store can be opened, and nothing is lost in reading the templates. -/
structure Tidy (root : Root R) : Prop where
  tasks : TasksTidy root.taskCfg
  devStore : StoreTidy root.devStore
  transStore : StoreTidy root.transStore
  distinct : ∀ type, Distinct (root.template type)
  lossless : ∀ type, Lossless (root.template type)

omit [Double R] in
/-- The same files, in directories listed in any order -/
structure SameFiles (root root' : Root R) : Prop where
  tasks : root.taskCfg.Perm root'.taskCfg
  devStore : StoreRelisted root.devStore root'.devStore
  transStore : StoreRelisted root.transStore root'.transStore
  composite : root'.composite = root.composite
  templates : Relisted root root'

/-- **The configuration does not depend on the order of the listings**, nor does whether it can
be read at all: in whatever order a file system lists the tasks, the device types, the
transmits, the files of these and the templates, the maps come out the same. -/
theorem parse_eq_of_sameFiles {root root' : Root R} (htidy : Tidy root)
    (h : SameFiles root root') : parse root' = parse root := by
  have hdevice (cfg : Config R) : parseDevice root' cfg = parseDevice root cfg := by
    unfold parseDevice
    rw [htidy.devStore.parseStore_eq h.devStore]
  unfold parse
  rw [parseTask_eq htidy.tasks h.tasks, parseTemplate_eq htidy.distinct htidy.lossless h.templates,
    htidy.transStore.parseStore_eq h.transStore, h.composite]
  simp only [hdevice]

/-! ### Two listings of one configuration -/

/-- An enabled task without content -/
def plainTask (subName name : String) : File ℚ :=
  ⟨subName, .reg, some (.object [("enable", .bool true), ("name", .string name)])⟩

def pointTableFile : File ℚ := ⟨"PointTable.json", .reg, some (.object [])⟩

def protocolFile : File ℚ := ⟨"Protocol.json", .reg, some (.object [])⟩

/-- Two tasks, two device types and no templates -/
def twoOfEach (tasks : List (File ℚ)) (types : List (StoreDir ℚ)) : Root ℚ where
  taskCfg := tasks
  devStore := types
  transStore := []
  composite := none
  template := fun _ => []

/-- Tasks, device types and the files of one come in the opposite order. -/
theorem listed_backwards :
    parse (twoOfEach [plainTask "2.json" "B", plainTask "1.json" "A"]
        [⟨"Meter", .dir, some []⟩, ⟨"Relay", .dir, some [protocolFile, pointTableFile]⟩]) =
      parse (twoOfEach [plainTask "1.json" "A", plainTask "2.json" "B"]
        [⟨"Relay", .dir, some [pointTableFile, protocolFile]⟩, ⟨"Meter", .dir, some []⟩]) := by
  refine parse_eq_of_sameFiles
    ⟨?_, ⟨?_, ?_, ?_⟩, ⟨by simp [twoOfEach], by simp [twoOfEach], by simp [twoOfEach]⟩,
      fun type name v w hv => ?_, fun type => ?_⟩
    ⟨.swap _ _ [], ⟨[⟨"Relay", .dir, some [protocolFile, pointTableFile]⟩,
      ⟨"Meter", .dir, some []⟩], .cons ⟨rfl, rfl, .some (.swap _ _ [])⟩
      (.cons ⟨rfl, rfl, .some .nil⟩ .nil), .swap _ _ []⟩, ⟨[], .nil, .nil⟩, rfl, fun _ => .refl _⟩
  · have ha : enabledName (plainTask "1.json" "A") = some "A" := rfl
    have hb : enabledName (plainTask "2.json" "B") = some "B" := rfl
    simp [TasksTidy, twoOfEach, ha, hb]
  · simp [twoOfEach]
  · simp [twoOfEach]
  · simp [twoOfEach, pointTableFile, protocolFile]
  · obtain ⟨f, hf, -⟩ := hv
    cases hf
  · constructor <;> simp [twoOfEach]

end DataEngine.ConfigParse
