import DataEngine.Config.Listing

/-!
What the parsed configuration answers, told by the files.

A task is described by its file, the tables of a device or a transmit by the files of a directory
of a store, and which devices there are by the contents of the tasks. These are gone through in
the order of the names of the tasks, and of two entries of one name the later one counts. The
members a task and its entries are asked for on the way are kept with them.
-/

namespace DataEngine.ConfigParse

open Json Lib.Effect

variable {R : Type}

/-! ### Stores -/

/-- The files of the store have `v` as the configuration of the type under the name. -/
def Stored (ds : List (StoreDir R)) (name : String) (type : CfgType) (v : Value R) : Prop :=
  ∃ d ∈ ds, d.fType = .dir ∧ d.subName = name ∧ ∃ f ∈ d.files.getD [], f.value = some v ∧
    (f.subName = "PointTable.json" ∧ type = .pointTable ∨
      f.subName = "Protocol.json" ∧ type = .protocol)

/-- The store has anything under the name. -/
def Stocked (ds : List (StoreDir R)) (name : String) : Prop := ∃ type v, Stored ds name type v

lemma File.read_of_table {f : File R}
    (h : f.subName = "PointTable.json" ∨ f.subName = "Protocol.json") : f.skipped = false := by
  have hjson : decide (".json".toList <:+: f.subName.toList) = true := by
    rcases h with h | h <;> rw [h] <;> decide +kernel
  rw [File.skipped, hjson, Bool.not_true, Bool.and_false]

lemma mem_dirItems_iff {d : StoreDir R} {name : String} {type : CfgType} {v : Value R} :
    (name, type, v) ∈ dirItems d ↔ d.fType = .dir ∧ d.subName = name ∧
      ∃ f ∈ d.files.getD [], f.value = some v ∧
        (f.subName = "PointTable.json" ∧ type = .pointTable ∨
          f.subName = "Protocol.json" ∧ type = .protocol) := by
  constructor
  · intro h
    obtain ⟨hname, files, hfiles, f, hf, hv, hftype⟩ := mem_dirItems h
    have hdir : d.fType = .dir := by
      by_contra hno
      simp [dirItems, hno] at h
    exact ⟨hdir, hname.symm, f, by simpa [hfiles] using hf, hv, hftype⟩
  · rintro ⟨hdir, rfl, f, hf, hv, hftype⟩
    rw [dirItems, if_pos hdir]
    refine List.mem_filterMap.mpr ⟨f, hf, ?_⟩
    rcases hftype with ⟨hname, rfl⟩ | ⟨hname, rfl⟩
    · simp [fileItem, File.read_of_table (.inl hname), hname, hv]
    · simp [fileItem, File.read_of_table (.inr hname), hname, hv]

lemma stored_iff {ds : List (StoreDir R)} {name : String} {type : CfgType} {v : Value R} :
    Stored ds name type v ↔ (name, type, v) ∈ ds.flatMap dirItems := by
  simp only [Stored, List.mem_flatMap, mem_dirItems_iff]

lemma entry_keep_append (m : Map String (Map CfgType (Value R))) (is : List (Item R)) (i : Item R)
    (name : String) (type : CfgType) :
    entry (keep m (is ++ [i])) name type =
      if name = i.1 ∧ type = i.2.1 then some i.2.2 else entry (keep m is) name type := by
  rw [keep_append]
  exact entry_setCfg _ _ _ _ _ _

/-- Of entries that do not contradict each other all can be looked up, and besides them what was
there before. -/
lemma entry_keep {items : List (Item R)} (h : Consistent items)
    (m : Map String (Map CfgType (Value R))) (name : String) (type : CfgType) (v : Value R) :
    entry (keep m items) name type = some v ↔ (name, type, v) ∈ items ∨
      (∀ w, (name, type, w) ∉ items) ∧ entry m name type = some v := by
  induction items using List.reverseRecOn with
  | nil => simp [keep]
  | append_singleton is i ih =>
    have his : Consistent is := fun a ha b hb =>
      h a (List.mem_append_left _ ha) b (List.mem_append_left _ hb)
    rw [entry_keep_append]
    simp only [List.mem_append, List.mem_singleton]
    by_cases hi : name = i.1 ∧ type = i.2.1
    · obtain ⟨rfl, rfl⟩ := hi
      rw [if_pos ⟨rfl, rfl⟩]
      constructor
      · intro hv
        exact .inl (.inr (by rw [← Option.some.inj hv]))
      · rintro ((hmem | heq) | ⟨hno, -⟩)
        · rw [← h _ (List.mem_append_left _ hmem) i (by simp) rfl rfl]
        · rw [← heq]
        · exact absurd (Or.inr rfl) (hno i.2.2)
    · have hne (w : Value R) : (name, type, w) ≠ i := by
        rintro rfl
        exact hi ⟨rfl, rfl⟩
      rw [if_neg hi, ih his]
      simp only [hne, or_false]

lemma entry_keep_empty {items : List (Item R)} (h : Consistent items) (name : String)
    (type : CfgType) (v : Value R) :
    entry (keep ∅ items) name type = some v ↔ (name, type, v) ∈ items := by
  rw [entry_keep h]
  simp [entry]

lemma StoreTidy.entry_parseStore {ds : List (StoreDir R)} (h : StoreTidy ds) (name : String)
    (type : CfgType) (v : Value R) :
    entry (parseStore ∅ ds) name type = some v ↔ Stored ds name type v := by
  rw [ConfigParse.parseStore_eq h.opened, entry_keep_empty h.consistent, stored_iff]

lemma filled_keep {m : Map String (Map CfgType (Value R))} (h : Filled m) (items : List (Item R)) :
    Filled (keep m items) := by
  induction items generalizing m with
  | nil => exact h
  | cons i items ih => exact ih (filled_setCfg h i.1 i.2.1 i.2.2)

lemma filled_empty : Filled (∅ : Map String (Map CfgType (Value R))) := fun name types h => by
  simp at h

/-- A name is in a map of the store if the store has anything under it. -/
lemma StoreTidy.mem_parseStore {ds : List (StoreDir R)} (h : StoreTidy ds) (name : String) :
    (∃ types, (parseStore ∅ ds)[name]? = some types) ↔ Stocked ds name := by
  have hfilled : Filled (parseStore ∅ ds) := by
    rw [ConfigParse.parseStore_eq h.opened]
    exact filled_keep filled_empty _
  constructor
  · rintro ⟨types, htypes⟩
    obtain ⟨type, v, hv⟩ := hfilled name types htypes
    exact ⟨type, v, (h.entry_parseStore name type v).mp (by simp [entry, htypes, hv])⟩
  · rintro ⟨type, v, hv⟩
    have hentry := (h.entry_parseStore name type v).mpr hv
    obtain ⟨types, htypes, -⟩ := Option.bind_eq_some_iff.mp hentry
    exact ⟨types, htypes⟩

/-! ### Tasks -/

section Tasks

variable [Double R]

/-- The file describes an enabled task. -/
def Describes (f : File R) (name : String) (attr channel : Value R) : Prop :=
  f.skipped = false ∧ ∃ cfgTask, f.value = some cfgTask ∧
    (cfgTask.get "enable").asBool = .ok true ∧ (cfgTask.get "name").asString = .ok name ∧
    (cfgTask.get "param").get "attribute" = attr ∧ (cfgTask.get "param").get "channel" = channel

/-- A file that is read makes two entries if it describes an enabled task, and otherwise none. -/
lemma taskItems_cases {f : File R} {items : List (Item R)} (h : taskItems f = .ok items) :
    items = [] ∧ (∀ name attr channel, ¬ Describes f name attr channel) ∨
      ∃ name attr channel, Describes f name attr channel ∧
        items = [(name, .attribute, attr), (name, .channel, channel)] := by
  unfold taskItems at h
  by_cases hskip : f.skipped = true
  · rw [if_pos hskip] at h
    exact .inl ⟨(Except.ok.inj h).symm, fun _ _ _ hd => absurd hd.1 (by simp [hskip])⟩
  rw [if_neg hskip] at h
  have hread : f.skipped = false := by simpa using hskip
  rcases hv : f.value with _ | cfgTask
  · rw [hv] at h
    refine .inl ⟨(Except.ok.inj h).symm, ?_⟩
    rintro _ _ _ ⟨-, _, hv', -⟩
    cases hv.symm.trans hv'
  simp only [hv] at h
  obtain ⟨enable, henable, h⟩ := bind_eq_ok.mp h
  obtain ⟨-, rfl⟩ := Value.member_eq_ok henable
  obtain ⟨bEnable, hbool, h⟩ := bind_eq_ok.mp h
  cases bEnable with
  | false =>
    refine .inl ⟨(Except.ok.inj h).symm, ?_⟩
    rintro _ _ _ ⟨-, v, hv', htrue, -⟩
    obtain rfl := Option.some.inj (hv.symm.trans hv')
    cases hbool.symm.trans htrue
  | true =>
    obtain ⟨vname, hmember, h⟩ := bind_eq_ok.mp h
    obtain ⟨-, rfl⟩ := Value.member_eq_ok hmember
    obtain ⟨name, hname, h⟩ := bind_eq_ok.mp h
    obtain ⟨param, hparam, h⟩ := bind_eq_ok.mp h
    obtain ⟨-, rfl⟩ := Value.member_eq_ok hparam
    obtain ⟨attr, hattr, h⟩ := bind_eq_ok.mp h
    obtain ⟨-, rfl⟩ := Value.member_eq_ok hattr
    obtain ⟨channel, hchannel, h⟩ := bind_eq_ok.mp h
    obtain ⟨-, rfl⟩ := Value.member_eq_ok hchannel
    exact .inr ⟨name, _, _, ⟨hread, cfgTask, hv, hbool, hname, rfl, rfl⟩,
      (Except.ok.inj h).symm⟩

lemma Describes.unique {f : File R} {name name' : String} {attr attr' channel channel' : Value R}
    (h : Describes f name attr channel) (h' : Describes f name' attr' channel') :
    name = name' ∧ attr = attr' ∧ channel = channel' := by
  obtain ⟨-, v, hv, -, hname, rfl, rfl⟩ := h
  obtain ⟨-, v', hv', -, hname', rfl, rfl⟩ := h'
  obtain rfl := Option.some.inj (hv.symm.trans hv')
  exact ⟨Except.ok.inj (hname.symm.trans hname'), rfl, rfl⟩

/-- A task of the name has `v` as its configuration of the type. -/
def Tasked (files : List (File R)) (name : String) (type : CfgType) (v : Value R) : Prop :=
  ∃ f ∈ files, ∃ attr channel, Describes f name attr channel ∧
    (type = .attribute ∧ v = attr ∨ type = .channel ∧ v = channel)

lemma mem_taskItems {f : File R} {items : List (Item R)} (h : taskItems f = .ok items)
    {name : String} {type : CfgType} {v : Value R} :
    (name, type, v) ∈ items ↔ ∃ attr channel, Describes f name attr channel ∧
      (type = .attribute ∧ v = attr ∨ type = .channel ∧ v = channel) := by
  obtain ⟨rfl, hno⟩ | ⟨name', attr', channel', hd, rfl⟩ := taskItems_cases h
  · simp [hno]
  · simp only [List.mem_cons, List.not_mem_nil, or_false, Prod.mk.injEq]
    constructor
    · rintro (⟨rfl, rfl, rfl⟩ | ⟨rfl, rfl, rfl⟩)
      · exact ⟨_, _, hd, .inl ⟨rfl, rfl⟩⟩
      · exact ⟨_, _, hd, .inr ⟨rfl, rfl⟩⟩
    · rintro ⟨attr, channel, hd', htype⟩
      obtain ⟨rfl, rfl, rfl⟩ := hd.unique hd'
      exact htype.imp (fun h => ⟨rfl, h⟩) fun h => ⟨rfl, h⟩

/-- The tasks are put in entry by entry. -/
lemma exists_items_of_parseTask {root : Root R} {m : Map String (Map CfgType (Value R))}
    (h : parseTask root = .ok m) :
    ∃ itemss, root.taskCfg.mapM taskItems = .ok itemss ∧ m = keep ∅ itemss.flatten := by
  rw [parseTask_items] at h
  rcases hitems : root.taskCfg.mapM taskItems with e | itemss
  · rw [hitems] at h
    cases h
  · rw [hitems] at h
    exact ⟨itemss, rfl, (Except.ok.inj h).symm⟩

lemma filled_parseTask {root : Root R} {m : Map String (Map CfgType (Value R))}
    (h : parseTask root = .ok m) : Filled m := by
  obtain ⟨itemss, -, rfl⟩ := exists_items_of_parseTask h
  exact filled_keep filled_empty _

lemma entry_parseTask {root : Root R} {m : Map String (Map CfgType (Value R))}
    (htidy : TasksTidy root.taskCfg) (h : parseTask root = .ok m) (name : String)
    (type : CfgType) (v : Value R) :
    entry m name type = some v ↔ Tasked root.taskCfg name type v := by
  obtain ⟨itemss, hitems, rfl⟩ := exists_items_of_parseTask h
  rw [entry_keep_empty (htidy.consistent hitems), List.mem_flatten]
  constructor
  · rintro ⟨items, hmem, hi⟩
    obtain ⟨f, hf, hfi⟩ := (mem_of_mapM hitems).mp hmem
    exact ⟨f, hf, (mem_taskItems hfi).mp hi⟩
  · rintro ⟨f, hf, hd⟩
    obtain ⟨items, hfi⟩ := exists_mapM_eq_ok.mp ⟨itemss, hitems⟩ f hf
    exact ⟨items, (mem_of_mapM hitems).mpr ⟨f, hf, hfi⟩, (mem_taskItems hfi).mpr hd⟩

end Tasks

/-! ### Contents -/

/-- An entry of the content of a task, as it is kept. -/
structure Listing (R : Type) where
  bTrans : Bool
  name : String
  devTypeName : String
  iter : Value R

section Contents

variable [Double R]

def readListing (bTrans : Bool) (iter : Value R) : Except Fault (Listing R) := do
  let name ← (← iter.member "name").asString
  if bTrans then .ok ⟨true, name, "", namedEntry true iter⟩
  else
    let devTypeName ← (← iter.member "devTypeName").asString
    .ok ⟨false, name, devTypeName, namedEntry false iter⟩

/-- The content of a task with these attributes -/
def readContent (attr : Value R) : Except Fault (List (Listing R)) := do
  let bTrans ← (← attr.member "bTrans").asBool
  (← attr.member "content").elements.mapM (readListing bTrans)

/-- The entries of the contents of all tasks, in the order in which they are gone through. -/
def listings (cfg : Config R) : Except Fault (List (Listing R)) := do
  let contents ← (getTaskName cfg).mapM fun name =>
    readContent ((getTaskCfg cfg name .attribute).getD .null)
  .ok contents.flatten

/-- The attributes of a task as they are kept -/
def keptAttr (attr : Value R) : Value R :=
  namedContent ((attr.get "bTrans").asBool.toOption.getD false) (attr.withMember "bTrans")

/-- The entry of a task whose attributes have been asked for what they name -/
def keptItem (task : String × Map CfgType (Value R)) : Item R :=
  (task.1, .attribute, keptAttr ((task.2[CfgType.attribute]?).getD .null))

/-- The tasks as they are kept -/
def keptTasks (m : Map String (Map CfgType (Value R))) : Map String (Map CfgType (Value R)) :=
  keep m (m.toList.map keptItem)

end Contents

/-- What an entry adds to the configuration: a device of a type nobody has a table of is left
out. -/
def addListing (cfg : Config R) (l : Listing R) : Config R :=
  if l.bTrans then { cfg with mapCfgAttr := cfg.mapCfgAttr.insert l.name l.iter }
  else
    match cfg.mapDeviceCfg[l.devTypeName]? with
    | none => cfg
    | some _ =>
      { cfg with
        mapDeviceNameCfg := cfg.mapDeviceNameCfg.insert l.name l.devTypeName
        mapCfgAttr := cfg.mapCfgAttr.insert l.name l.iter }

lemma addListing_tasks (cfg : Config R) (m : Map String (Map CfgType (Value R))) (l : Listing R) :
    addListing { cfg with mapTaskCfg := m } l = { addListing cfg l with mapTaskCfg := m } := by
  unfold addListing
  split_ifs
  · rfl
  · rcases cfg.mapDeviceCfg[l.devTypeName]? with _ | types <;> rfl

/-- The entries leave the tasks as they are. -/
lemma foldl_addListing_tasks (cfg : Config R) (m : Map String (Map CfgType (Value R)))
    (ls : List (Listing R)) :
    ls.foldl addListing { cfg with mapTaskCfg := m } =
      { ls.foldl addListing cfg with mapTaskCfg := m } := by
  induction ls generalizing cfg with
  | nil => rfl
  | cons l ls ih => rw [List.foldl_cons, List.foldl_cons, addListing_tasks, ih]

section Contents

variable [Double R]

/-- What has been asked for what it names says the same when it is asked again. -/
lemma readListing_namedEntry (bTrans : Bool) (iter : Value R) :
    readListing bTrans (namedEntry bTrans iter) = readListing bTrans iter := by
  cases bTrans with
  | true =>
    simp only [readListing, namedEntry, if_true, Value.member_withMember, Value.withMember_self]
  | false =>
    have hself (v : Value R) :
        (((v.withMember "name").withMember "devTypeName").withMember "name").withMember
          "devTypeName" = (v.withMember "name").withMember "devTypeName" := by
      rw [Value.withMember_of_eq (v.withMember_self "name"), Value.withMember_self]
    simp only [readListing, namedEntry, Bool.false_eq_true, if_false, Value.member_withMember,
      hself]

lemma readContent_keptAttr (attr : Value R) : readContent (keptAttr attr) = readContent attr := by
  unfold readContent keptAttr namedContent
  simp only [Value.member_mapMember (f := Value.mapElements _) rfl, Value.member_withMember]
  rcases hv : attr.member "bTrans" with e | v
  · rfl
  obtain ⟨-, rfl⟩ := Value.member_eq_ok hv
  simp only [bind, Except.bind, Functor.map, Except.map, if_neg (by decide : "bTrans" ≠ "content")]
  rcases (attr.get "bTrans").asBool with e | bTrans
  · rfl
  simp only
  rcases attr.member "content" with e | content
  · rfl
  have heach : readListing bTrans ∘ namedEntry bTrans = (readListing bTrans : Value R → _) :=
    funext (readListing_namedEntry bTrans)
  simp only [if_true, Value.elements_mapElements, List.mapM_map, Except.toOption,
    Option.getD_some, heach]

lemma parseContent_eq (bTrans : Bool) (cfg : Config R) (iter : Value R) :
    parseContent bTrans cfg iter = addListing cfg <$> readListing bTrans iter := by
  unfold parseContent readListing
  simp only [map_bind]
  refine bind_congr fun v => bind_congr fun name => ?_
  cases bTrans with
  | true => rfl
  | false =>
    simp only [Bool.false_eq_true, if_false, map_bind]
    refine bind_congr fun v => bind_congr fun devTypeName => ?_
    show _ = Except.ok (addListing cfg ⟨false, name, devTypeName, namedEntry false iter⟩)
    simp only [addListing, Bool.false_eq_true, if_false]
    rcases cfg.mapDeviceCfg[devTypeName]? with _ | types <;> rfl

/-- What `parseDevice` does with a task. -/
lemma parseContents_eq (cfg : Config R) (name : String) (attr : Value R) :
    (do
      let bTrans ← (← attr.member "bTrans").asBool
      let attr := attr.withMember "bTrans"
      let cfg ← (← attr.member "content").elements.foldlM (parseContent bTrans) cfg
      .ok { cfg with
        mapTaskCfg := setCfg cfg.mapTaskCfg name .attribute (namedContent bTrans attr) }) =
      (fun ls =>
        { ls.foldl addListing cfg with
          mapTaskCfg := setCfg cfg.mapTaskCfg name .attribute (keptAttr attr) }) <$>
        readContent attr := by
  unfold readContent keptAttr
  simp only [map_bind, Value.member_withMember]
  rcases hv : attr.member "bTrans" with e | v
  · rfl
  obtain ⟨-, rfl⟩ := Value.member_eq_ok hv
  simp only [bind, Except.bind]
  rcases (attr.get "bTrans").asBool with e | bTrans
  · rfl
  simp only
  rcases attr.member "content" with e | content
  · rfl
  have heach : (parseContent bTrans : _ → Value R → _) =
      fun cfg iter => addListing cfg <$> readListing bTrans iter :=
    funext fun cfg => funext fun iter => parseContent_eq bTrans cfg iter
  simp only [heach, foldlM_map_eq]
  rcases content.elements.mapM (readListing bTrans) with e | ls
  · rfl
  · have htasks := congrArg Config.mapTaskCfg (foldl_addListing_tasks cfg cfg.mapTaskCfg ls)
    simp only [Functor.map, Except.map, htasks]
    rfl

/-- The tasks of the map, one by one, are those that are looked up by their names. -/
lemma mapM_readContent_eq (cfg : Config R) :
    cfg.mapTaskCfg.toList.mapM (fun task : String × Map CfgType (Value R) =>
        readContent ((task.2[CfgType.attribute]?).getD .null)) =
      (getTaskName cfg).mapM fun name =>
        readContent ((getTaskCfg cfg name .attribute).getD .null) := by
  rw [getTaskName, ← Std.ExtTreeMap.map_fst_toList_eq_keys, List.mapM_map]
  refine mapM_congr fun task htask => ?_
  have hget := Std.ExtTreeMap.mem_toList_iff_getElem?_eq_some.mp htask
  simp [getTaskCfg, hget]

/-- The devices are read from the contents of the tasks, one entry after the other. -/
lemma foldlM_parseContents (tasks : List (String × Map CfgType (Value R))) (cfg : Config R) :
    tasks.foldlM (fun cfg task => do
      let attr := (task.2[CfgType.attribute]?).getD .null
      let bTrans ← (← attr.member "bTrans").asBool
      let attr := attr.withMember "bTrans"
      let cfg ← (← attr.member "content").elements.foldlM (parseContent bTrans) cfg
      .ok { cfg with
        mapTaskCfg := setCfg cfg.mapTaskCfg task.1 .attribute (namedContent bTrans attr) }) cfg =
      (fun contents =>
        { contents.flatten.foldl addListing cfg with
          mapTaskCfg := keep cfg.mapTaskCfg (tasks.map keptItem) }) <$>
        tasks.mapM fun task => readContent ((task.2[CfgType.attribute]?).getD .null) := by
  simp only [parseContents_eq]
  induction tasks generalizing cfg with
  | nil => rfl
  | cons task tasks ih =>
    rw [List.foldlM_cons, List.mapM_cons]
    rcases readContent ((task.2[CfgType.attribute]?).getD .null) with e | ls
    · rfl
    simp only [bind, Except.bind, Functor.map, Except.map] at ih ⊢
    rw [ih]
    rcases tasks.mapM _ with e | contents
    · rfl
    · have happend : (ls :: contents).flatten.foldl addListing cfg =
          contents.flatten.foldl addListing (ls.foldl addListing cfg) := by
        rw [List.flatten_cons, List.foldl_append]
      simp only [pure, Except.pure, foldl_addListing_tasks, happend]
      rfl

lemma parseDevice_eq (root : Root R) (cfg : Config R) : parseDevice root cfg =
    (fun ls =>
      { ls.foldl addListing { cfg with mapDeviceCfg := parseStore ∅ root.devStore } with
        mapTaskCfg := keptTasks cfg.mapTaskCfg }) <$> listings cfg := by
  unfold parseDevice listings
  simp only [foldlM_parseContents]
  rw [mapM_readContent_eq, map_bind]
  rfl

/-! ### The tasks as they are kept -/

lemma mem_keptItems {m : Map String (Map CfgType (Value R))} {name : String} {type : CfgType}
    {v : Value R} : (name, type, v) ∈ m.toList.map keptItem ↔ type = .attribute ∧
      ∃ types, m[name]? = some types ∧ v = keptAttr ((types[CfgType.attribute]?).getD .null) := by
  rw [List.mem_map]
  constructor
  · rintro ⟨⟨name', types⟩, htask, heq⟩
    obtain ⟨rfl, rfl, rfl⟩ : name' = name ∧ CfgType.attribute = type ∧
        keptAttr ((types[CfgType.attribute]?).getD .null) = v := by
      simpa [keptItem] using heq
    exact ⟨rfl, types, Std.ExtTreeMap.mem_toList_iff_getElem?_eq_some.mp htask, rfl⟩
  · rintro ⟨rfl, types, htypes, rfl⟩
    exact ⟨(name, types), Std.ExtTreeMap.mem_toList_iff_getElem?_eq_some.mpr htypes, rfl⟩

lemma consistent_keptItems (m : Map String (Map CfgType (Value R))) :
    Consistent (m.toList.map keptItem) := by
  rintro ⟨name, type, v⟩ hi ⟨_, _, w⟩ hj rfl rfl
  obtain ⟨rfl, types, htypes, rfl⟩ := mem_keptItems.mp hi
  obtain ⟨-, types', htypes', rfl⟩ := mem_keptItems.mp hj
  obtain rfl := Option.some.inj (htypes.symm.trans htypes')
  rfl

lemma entry_keptTasks (m : Map String (Map CfgType (Value R))) (name : String) (type : CfgType)
    (v : Value R) : entry (keptTasks m) name type = some v ↔
      if type = .attribute then
        ∃ types, m[name]? = some types ∧ v = keptAttr ((types[CfgType.attribute]?).getD .null)
      else entry m name type = some v := by
  unfold keptTasks
  rw [entry_keep (consistent_keptItems m)]
  simp only [mem_keptItems]
  split_ifs with htype
  · simp only [htype, true_and]
    refine or_iff_left ?_
    rintro ⟨hno, hv⟩
    obtain ⟨types, htypes, -⟩ := Option.bind_eq_some_iff.mp hv
    exact hno _ ⟨types, htypes, rfl⟩
  · simp [htype]

lemma mem_keptTasks (m : Map String (Map CfgType (Value R))) (name : String) :
    name ∈ keptTasks m ↔ name ∈ m := by
  have hkeep (items : List (Item R)) (hitems : ∀ i ∈ items, i.1 ∈ m)
      (m' : Map String (Map CfgType (Value R))) (hm' : ∀ n, n ∈ m' ↔ n ∈ m) :
      name ∈ keep m' items ↔ name ∈ m := by
    induction items generalizing m' with
    | nil => exact hm' name
    | cons i items ih =>
      obtain ⟨hi, hrest⟩ := List.forall_mem_cons.mp hitems
      refine ih hrest _ fun n => ?_
      show n ∈ setCfg m' i.1 i.2.1 i.2.2 ↔ n ∈ m
      unfold setCfg
      rw [Map.mem_insert, hm']
      exact or_iff_right_of_imp fun hn => hn ▸ hi
  refine hkeep _ (fun i hi => ?_) m fun _ => .rfl
  obtain ⟨-, types, htypes, -⟩ := mem_keptItems.mp hi
  exact Std.ExtTreeMap.mem_iff_isSome_getElem?.mpr (by simp [htypes])

/-- The same contents are read from the tasks as they are kept. -/
lemma listings_keptTasks {cfg cfg' : Config R} (h : cfg'.mapTaskCfg = keptTasks cfg.mapTaskCfg) :
    listings cfg' = listings cfg := by
  have hnames : getTaskName cfg' = getTaskName cfg := by
    unfold getTaskName
    rw [h]
    exact Map.keys_congr (mem_keptTasks cfg.mapTaskCfg)
  unfold listings
  rw [hnames]
  congr 1
  refine mapM_congr fun name hname => ?_
  obtain ⟨types, htypes⟩ := Option.isSome_iff_exists.mp
    (Std.ExtTreeMap.mem_iff_isSome_getElem?.mp (Std.ExtTreeMap.mem_keys.mp hname))
  have hkept := (entry_keptTasks cfg.mapTaskCfg name .attribute _).mpr
    (by rw [if_pos rfl]; exact ⟨types, htypes, rfl⟩)
  have hget' : getTaskCfg cfg' name .attribute =
      some (keptAttr ((types[CfgType.attribute]?).getD .null)) := by
    rw [← hkept, ← h]
    rfl
  have hget : getTaskCfg cfg name .attribute = types[CfgType.attribute]? := by
    simp [getTaskCfg, htypes]
  rw [hget', hget, Option.getD_some, readContent_keptAttr]

end Contents

/-! ### What is kept of the contents -/

/-- The last of the entries of a name that are such. -/
def lastListed (p : Listing R → Bool) (ls : List (Listing R)) (name : String) :
    Option (Listing R) :=
  (ls.filter fun l => p l && l.name = name).getLast?

lemma lastListed_append (p : Listing R → Bool) (ls : List (Listing R)) (l : Listing R)
    (name : String) :
    lastListed p (ls ++ [l]) name =
      if p l ∧ name = l.name then some l else lastListed p ls name := by
  unfold lastListed
  rw [List.filter_append]
  by_cases h : p l ∧ name = l.name
  · rw [if_pos h]
    simp [h.1, h.2]
  · rw [if_neg h]
    have hno : (p l && decide (l.name = name)) = false := by
      by_contra hyes
      obtain ⟨hp, hname⟩ := Bool.and_eq_true_iff.mp (Bool.eq_true_of_not_eq_false hyes)
      exact h ⟨hp, (of_decide_eq_true hname).symm⟩
    simp [hno]

lemma lastListed_eq_some {p : Listing R → Bool} {ls : List (Listing R)} {name : String}
    {l : Listing R} (h : lastListed p ls name = some l) : l ∈ ls ∧ p l ∧ l.name = name := by
  obtain ⟨hmem, hp⟩ := List.mem_filter.mp (List.mem_of_getLast? h)
  simpa [hmem] using hp

/-- The entry is that of a device, where `known` are the types of devices. -/
def listsDevice (known : String → Bool) (l : Listing R) : Bool := !l.bTrans && known l.devTypeName

/-- The entry is not left out. -/
def listsName (known : String → Bool) (l : Listing R) : Bool := l.bTrans || known l.devTypeName

def typesOf (m : Map String (Map CfgType (Value R))) (devTypeName : String) : Bool :=
  m[devTypeName]?.isSome

lemma addListing_eq (cfg : Config R) (l : Listing R) :
    (addListing cfg l).mapTaskCfg = cfg.mapTaskCfg ∧
      (addListing cfg l).mapDeviceCfg = cfg.mapDeviceCfg ∧
      (addListing cfg l).mapDeviceNameCfg = (if listsDevice (typesOf cfg.mapDeviceCfg) l then
        cfg.mapDeviceNameCfg.insert l.name l.devTypeName else cfg.mapDeviceNameCfg) ∧
      (addListing cfg l).mapCfgAttr = (if listsName (typesOf cfg.mapDeviceCfg) l then
        cfg.mapCfgAttr.insert l.name l.iter else cfg.mapCfgAttr) := by
  unfold addListing listsDevice listsName typesOf
  by_cases hbTrans : l.bTrans = true
  · rw [if_pos hbTrans]
    simp only [hbTrans, Bool.not_true, Bool.false_and, Bool.true_or, Bool.false_eq_true, if_false,
      if_true, and_self]
  · rw [if_neg hbTrans, Bool.eq_false_of_not_eq_true hbTrans]
    rcases cfg.mapDeviceCfg[l.devTypeName]? with _ | types
    · exact ⟨rfl, rfl, rfl, rfl⟩
    · exact ⟨rfl, rfl, rfl, rfl⟩

/-- Of a device its type is kept, and of every name its attributes, those of the last entry. -/
lemma foldl_addListing (cfg : Config R) (ls : List (Listing R)) :
    (ls.foldl addListing cfg).mapTaskCfg = cfg.mapTaskCfg ∧
      (ls.foldl addListing cfg).mapDeviceCfg = cfg.mapDeviceCfg ∧
      (∀ name, (ls.foldl addListing cfg).mapDeviceNameCfg[name]? =
        ((lastListed (listsDevice (typesOf cfg.mapDeviceCfg)) ls name).map Listing.devTypeName).or
          cfg.mapDeviceNameCfg[name]?) ∧
      ∀ name, (ls.foldl addListing cfg).mapCfgAttr[name]? =
        ((lastListed (listsName (typesOf cfg.mapDeviceCfg)) ls name).map Listing.iter).or
          cfg.mapCfgAttr[name]? := by
  induction ls using List.reverseRecOn with
  | nil => simp [lastListed]
  | append_singleton ls l ih =>
    obtain ⟨htask, hdevice, hname, hattr⟩ := ih
    obtain ⟨htask', hdevice', hname', hattr'⟩ := addListing_eq (ls.foldl addListing cfg) l
    rw [hdevice] at hname' hattr'
    rw [List.foldl_append, List.foldl_cons, List.foldl_nil]
    refine ⟨htask'.trans htask, hdevice'.trans hdevice, fun name => ?_, fun name => ?_⟩
    · rw [hname', lastListed_append]
      by_cases hl : listsDevice (typesOf cfg.mapDeviceCfg) l
      · rw [if_pos hl, Map.getElem?_insert, hname]
        by_cases hn : name = l.name <;> simp [hl, hn]
      · rw [if_neg hl, if_neg fun h => hl h.1, hname]
    · rw [hattr', lastListed_append]
      by_cases hl : listsName (typesOf cfg.mapDeviceCfg) l
      · rw [if_pos hl, Map.getElem?_insert, hattr]
        by_cases hn : name = l.name <;> simp [hl, hn]
      · rw [if_neg hl, if_neg fun h => hl h.1, hattr]

/-! ### The answers -/

instance (ds : List (StoreDir R)) (name : String) : Decidable (Stocked ds name) :=
  decidable_of_iff (∃ i ∈ ds.flatMap dirItems, i.1 = name) (by
    simp only [Stocked, stored_iff]
    constructor
    · rintro ⟨⟨_, type, v⟩, hi, rfl⟩
      exact ⟨type, v, hi⟩
    · rintro ⟨type, v, hi⟩
      exact ⟨_, hi, rfl⟩)

/-- The entry that makes the name a device. -/
def listedDevice (root : Root R) (ls : List (Listing R)) (name : String) : Option (Listing R) :=
  lastListed (listsDevice fun t => Stocked root.devStore t) ls name

/-- The entry that is kept as the attributes of the name. -/
def listedAttributes (root : Root R) (ls : List (Listing R)) (name : String) : Option (Value R) :=
  (lastListed (listsName fun t => Stocked root.devStore t) ls name).map Listing.iter

variable [Double R]

/-- Every look-up answers what the files say. -/
structure Answers (root : Root R) (ls : List (Listing R)) (cfg : Config R) : Prop where
  taskName (name : String) : name ∈ getTaskName cfg ↔
    ∃ f ∈ root.taskCfg, ∃ attr channel, Describes f name attr channel
  task (name : String) (type : CfgType) (v : Value R) :
    getTaskCfg cfg name type = some v ↔ ∃ w, Tasked root.taskCfg name type w ∧
      v = if type = .attribute then keptAttr w else w
  deviceName (name : String) : name ∈ getDeviceName cfg ↔ (listedDevice root ls name).isSome
  device (name : String) (type : CfgType) (v : Value R) :
    getDeviceCfg cfg name type = some v ↔ ∃ l, listedDevice root ls name = some l ∧
      if type = .attribute then listedAttributes root ls name = some v
      else Stored root.devStore l.devTypeName type v
  transName (name : String) : name ∈ getTransName cfg ↔ Stocked root.transStore name
  trans (name : String) (type : CfgType) (v : Value R) :
    getTransCfg cfg name type = some v ↔ Stocked root.transStore name ∧
      if type = .attribute then (listedAttributes root ls name).getD .null = v
      else Stored root.transStore name type v
  template (name : String) (type : CfgType) (v : Value R) :
    getTemplateCfg cfg name type = some v ↔ Carries (root.template type) name v
  composite : getCompositeCfg cfg = root.composite.getD .null

/-- What is in the maps of a configuration that has been parsed. -/
lemma parse_eq_ok {root : Root R} {cfg : Config R} (h : parse root = .ok cfg) :
    ∃ mapTaskCfg ls, parseTask root = .ok mapTaskCfg ∧ cfg.mapTaskCfg = keptTasks mapTaskCfg ∧
      listings cfg = .ok ls ∧ cfg.mapDeviceCfg = parseStore ∅ root.devStore ∧
      (∀ name, cfg.mapDeviceNameCfg[name]? =
        (lastListed (listsDevice (typesOf cfg.mapDeviceCfg)) ls name).map Listing.devTypeName) ∧
      (∀ name, cfg.mapCfgAttr[name]? =
        (lastListed (listsName (typesOf cfg.mapDeviceCfg)) ls name).map Listing.iter) ∧
      cfg.mapTransNameCfg = parseStore ∅ root.transStore ∧
      cfg.compositeCfg = root.composite.getD .null ∧
      parseTemplate root = .ok cfg.mapTemplateCfg := by
  unfold parse at h
  obtain ⟨mapTaskCfg, htask, h⟩ := bind_eq_ok.mp h
  obtain ⟨c, hc, h⟩ := bind_eq_ok.mp h
  obtain ⟨mapTemplateCfg, htemplate, h⟩ := bind_eq_ok.mp h
  obtain rfl := Except.ok.inj h
  rw [parseDevice_eq] at hc
  rcases hls : listings { (empty : Config R) with mapTaskCfg := mapTaskCfg } with e | ls
  · rw [hls] at hc
    cases hc
  rw [hls] at hc
  obtain rfl := Except.ok.inj hc
  obtain ⟨-, hdevice, hname, hattr⟩ := foldl_addListing
    { (empty : Config R) with
      mapTaskCfg := mapTaskCfg
      mapDeviceCfg := parseStore ∅ root.devStore } ls
  refine ⟨mapTaskCfg, ls, htask, rfl, ?_, hdevice, fun name => ?_, fun name => ?_, rfl, rfl,
    htemplate⟩
  · rw [← hls]
    exact listings_keptTasks rfl
  · show (ls.foldl addListing _).mapDeviceNameCfg[name]? = _
    rw [hname name, hdevice]
    simp [empty]
  · show (ls.foldl addListing _).mapCfgAttr[name]? = _
    rw [hattr name, hdevice]
    simp [empty]

omit [Double R] in
lemma typesOf_parseStore {ds : List (StoreDir R)} (h : StoreTidy ds) :
    typesOf (parseStore ∅ ds) = fun t => decide (Stocked ds t) := by
  funext t
  rw [typesOf, Bool.eq_iff_iff, Option.isSome_iff_exists, h.mem_parseStore, decide_eq_true_iff]

omit [Double R] in
/-- A device has attributes. -/
lemma listedAttributes_of_device {root : Root R} {ls : List (Listing R)} {name : String}
    {l : Listing R} (h : listedDevice root ls name = some l) :
    ∃ v, listedAttributes root ls name = some v := by
  obtain ⟨hmem, hcollected, hname⟩ := lastListed_eq_some h
  have hkept : listsName (fun t => decide (Stocked root.devStore t)) l = true :=
    Bool.or_eq_true_iff.mpr (.inr (Bool.and_eq_true_iff.mp hcollected).2)
  have hne : (ls.filter fun l => listsName (fun t => decide (Stocked root.devStore t)) l &&
      decide (l.name = name)) ≠ [] :=
    List.ne_nil_of_mem (List.mem_filter.mpr ⟨hmem, by simp [hkept, hname]⟩)
  obtain ⟨last, hlast⟩ := Option.ne_none_iff_exists'.mp (mt List.getLast?_eq_none_iff.mp hne)
  exact ⟨last.iter, by rw [listedAttributes, lastListed, hlast, Option.map_some]⟩

/-- The devices are the names that are listed with a type the store has. -/
lemma getElem?_mapDeviceNameCfg {root : Root R} {cfg : Config R} (htidy : StoreTidy root.devStore)
    (h : parse root = .ok cfg) {ls : List (Listing R)} (hls : listings cfg = .ok ls)
    (name : String) : cfg.mapDeviceNameCfg[name]? =
      (listedDevice root ls name).map Listing.devTypeName := by
  obtain ⟨-, ls', -, -, hls', hdevice, hname, -⟩ := parse_eq_ok h
  obtain rfl := Except.ok.inj (hls.symm.trans hls')
  rw [hdevice, typesOf_parseStore htidy] at hname
  exact hname name

/-- The attributes of a name are the last entry that is kept of it. -/
lemma attributeOf_eq {root : Root R} {cfg : Config R} (htidy : StoreTidy root.devStore)
    (h : parse root = .ok cfg) {ls : List (Listing R)} (hls : listings cfg = .ok ls)
    (name : String) : attributeOf cfg name = (listedAttributes root ls name).getD .null := by
  obtain ⟨-, ls', -, -, hls', hdevice, -, hattr, -⟩ := parse_eq_ok h
  obtain rfl := Except.ok.inj (hls.symm.trans hls')
  rw [hdevice, typesOf_parseStore htidy] at hattr
  rw [attributeOf, hattr]
  rfl

lemma getDeviceCfg_iff {root : Root R} {cfg : Config R} (htidy : StoreTidy root.devStore)
    (h : parse root = .ok cfg) {ls : List (Listing R)} (hls : listings cfg = .ok ls)
    (name : String) (type : CfgType) (v : Value R) :
    getDeviceCfg cfg name type = some v ↔ ∃ l, listedDevice root ls name = some l ∧
      if type = .attribute then listedAttributes root ls name = some v
      else Stored root.devStore l.devTypeName type v := by
  obtain ⟨-, -, -, -, -, hdevice, -⟩ := parse_eq_ok h
  have hstore := htidy.entry_parseStore
  unfold getDeviceCfg
  rw [getElem?_mapDeviceNameCfg htidy h hls]
  rcases hl : listedDevice root ls name with _ | l
  · simp
  obtain ⟨w, hw⟩ := listedAttributes_of_device hl
  by_cases htype : type = .attribute
  · simp [htype, attributeOf_eq htidy h hls, hw]
  · simp only [Option.map_some, Option.bind_eq_bind, Option.bind_some, if_neg htype,
      Option.some.injEq, exists_eq_left', hdevice]
    exact hstore l.devTypeName type v

lemma mem_taskName {root : Root R} {m : Map String (Map CfgType (Value R))}
    (htidy : TasksTidy root.taskCfg) (h : parseTask root = .ok m) (name : String) :
    (∃ types, m[name]? = some types) ↔
      ∃ f ∈ root.taskCfg, ∃ attr channel, Describes f name attr channel := by
  have hentry := entry_parseTask htidy h name
  constructor
  · rintro ⟨types, htypes⟩
    obtain ⟨type, v, hv⟩ := filled_parseTask h name types htypes
    obtain ⟨f, hf, attr, channel, hd, -⟩ :=
      (hentry type v).mp (by rw [entry, htypes, Option.bind_some, hv])
    exact ⟨f, hf, attr, channel, hd⟩
  · rintro ⟨f, hf, attr, channel, hd⟩
    have hattr := (hentry .attribute attr).mpr ⟨f, hf, attr, channel, hd, .inl ⟨rfl, rfl⟩⟩
    obtain ⟨types, htypes, -⟩ := Option.bind_eq_some_iff.mp hattr
    exact ⟨types, htypes⟩

lemma getTaskCfg_iff {root : Root R} {cfg : Config R} {m : Map String (Map CfgType (Value R))}
    (htidy : TasksTidy root.taskCfg) (h : parseTask root = .ok m)
    (hmap : cfg.mapTaskCfg = keptTasks m) (name : String) (type : CfgType) (v : Value R) :
    getTaskCfg cfg name type = some v ↔ ∃ w, Tasked root.taskCfg name type w ∧
      v = if type = .attribute then keptAttr w else w := by
  have hentry := entry_parseTask htidy h name
  have hget : getTaskCfg cfg name type = entry (keptTasks m) name type := by
    rw [← hmap]
    rfl
  rw [hget, entry_keptTasks]
  split_ifs with htype
  · subst htype
    constructor
    · rintro ⟨types, htypes, rfl⟩
      obtain ⟨f, hf, attr, channel, hd⟩ := (mem_taskName htidy h name).mp ⟨types, htypes⟩
      have htasked : Tasked root.taskCfg name .attribute attr :=
        ⟨f, hf, attr, channel, hd, .inl ⟨rfl, rfl⟩⟩
      have hattr := (hentry .attribute attr).mpr htasked
      rw [entry, htypes, Option.bind_some] at hattr
      exact ⟨attr, htasked, by rw [hattr, Option.getD_some]⟩
    · rintro ⟨w, hw, rfl⟩
      obtain ⟨types, htypes, hattr⟩ := Option.bind_eq_some_iff.mp ((hentry .attribute w).mpr hw)
      exact ⟨types, htypes, by rw [hattr, Option.getD_some]⟩
  · rw [hentry]
    exact exists_eq_right'.symm

/-- **The look-ups answer what the files say**, if no name is given twice in one place, every
directory of a store can be opened, and nothing is lost in reading the templates. What has been
asked for a member in the parsing has it, as `null` where the file has none. -/
theorem parse_answers {root : Root R} {cfg : Config R} (htidy : Tidy root)
    (h : parse root = .ok cfg) : ∃ ls, listings cfg = .ok ls ∧ Answers root ls cfg := by
  obtain ⟨mapTaskCfg, ls, htask, hmap, hls, -, -, -, htrans, hcomposite, htemplate⟩ :=
    parse_eq_ok h
  refine ⟨ls, hls, fun name => ?_, fun name type v => ?_, fun name => ?_, fun name type v => ?_,
    fun name => ?_, fun name type v => ?_, fun name type v => ?_, hcomposite⟩
  · rw [getTaskName, Std.ExtTreeMap.mem_keys, hmap, mem_keptTasks,
      Std.ExtTreeMap.mem_iff_isSome_getElem?, Option.isSome_iff_exists,
      mem_taskName htidy.tasks htask]
  · exact getTaskCfg_iff htidy.tasks htask hmap name type v
  · rw [getDeviceName, Std.ExtTreeMap.mem_keys, Std.ExtTreeMap.mem_iff_isSome_getElem?,
      getElem?_mapDeviceNameCfg htidy.devStore h hls, Option.isSome_map]
  · exact getDeviceCfg_iff htidy.devStore h hls name type v
  · rw [getTransName, Std.ExtTreeMap.mem_keys, Std.ExtTreeMap.mem_iff_isSome_getElem?, htrans,
      Option.isSome_iff_exists, htidy.transStore.mem_parseStore]
  · have hstocked := htidy.transStore.mem_parseStore name
    have hstored := htidy.transStore.entry_parseStore name type v
    unfold getTransCfg
    rw [htrans, ← hstocked, ← hstored, entry]
    rcases htypes : (parseStore ∅ root.transStore)[name]? with _ | types
    · simp
    · by_cases htype : type = .attribute
      · simp [htype, attributeOf_eq htidy.devStore h hls]
      · simp [htype]
  · obtain ⟨m, hm, hloaded⟩ := loaded_iff.mpr fun type =>
      (htidy.lossless type).complete (htidy.distinct type) (.refl (root.template type))
    obtain rfl := Except.ok.inj (htemplate.symm.trans hm)
    exact hloaded type name v

/-! ### A device that is listed twice -/

def meterTable : Value ℚ :=
  .object [("param", .object [("measure", .array [.object [], .object []])])]

def meterDir : StoreDir ℚ := ⟨"Meter", .dir, some [⟨"PointTable.json", .reg, some meterTable⟩]⟩

/-- A task that lists one device, first as a relay and then as a meter. -/
def meters : Root ℚ where
  taskCfg := [⟨"T.json", .reg, some (.object [("enable", .bool true), ("name", .string "T"),
    ("param", .object [("attribute", .object [("bTrans", .bool false),
      ("content", .array (["Relay", "Meter"].map fun type =>
        .object [("name", .string "A"), ("devTypeName", .string type)]))])])])⟩]
  devStore := [⟨"Relay", .dir, some [protocolFile]⟩, meterDir]
  transStore := []
  composite := none
  template := fun _ => []

lemma meters_tidy : Tidy meters := by
  refine ⟨List.pairwise_singleton _ _, ⟨?_, ?_, ?_⟩, ⟨by simp [meters], by simp [meters],
    by simp [meters]⟩, fun type name v w hv => ?_, fun type => ?_⟩
  · simp [meters, meterDir]
  · simp [meters, meterDir]
  · simp [meters, meterDir]
  · obtain ⟨f, hf, -⟩ := hv
    cases hf
  · constructor <;> simp [meters]

lemma stored_meters {devTypeName : String} {table : Value ℚ} :
    Stored meters.devStore devTypeName .pointTable table ↔
      devTypeName = "Meter" ∧ table = meterTable := by
  simp [Stored, meters, meterDir, protocolFile, eq_comm]

/-- The device is a meter. -/
lemma listed_meter {cfg : Config ℚ} (h : parse meters = .ok cfg) {ls : List (Listing ℚ)}
    (hls : listings cfg = .ok ls) :
    ∃ l, listedDevice meters ls "A" = some l ∧ l.devTypeName = "Meter" := by
  have hlast : ((parse meters).toOption.bind fun cfg => (listings cfg).toOption.bind fun ls =>
      (listedDevice meters ls "A").map Listing.devTypeName) = some "Meter" := by decide +kernel
  rw [h] at hlast
  simp only [Except.toOption, Option.bind_some, hls] at hlast
  exact Option.map_eq_some_iff.mp hlast

lemma exists_meters : ∃ cfg, parse meters = .ok cfg := by
  have hok : (parse meters).toOption.isSome = true := by decide +kernel
  rcases h : parse meters with e | cfg
  · rw [h] at hok
    cases hok
  · exact ⟨cfg, rfl⟩

/-- Its table is that of a meter, and of a protocol nothing is known. -/
theorem meter_looked_up : ∃ cfg, parse meters = .ok cfg ∧
    getDeviceCfg cfg "A" .pointTable = some meterTable ∧
    ∀ v, getDeviceCfg cfg "A" .protocol ≠ some v := by
  obtain ⟨cfg, hcfg⟩ := exists_meters
  obtain ⟨ls, hls, hans⟩ := parse_answers meters_tidy hcfg
  obtain ⟨l, hl, htype⟩ := listed_meter hcfg hls
  refine ⟨cfg, hcfg, (hans.device "A" .pointTable meterTable).mpr
    ⟨l, hl, stored_meters.mpr ⟨htype, rfl⟩⟩, fun v hv => ?_⟩
  obtain ⟨l', hl', hstored⟩ := (hans.device "A" .protocol v).mp hv
  obtain rfl := Option.some.inj (hl.symm.trans hl')
  rw [if_neg (by decide), htype] at hstored
  simp [Stored, meters, meterDir] at hstored

end DataEngine.ConfigParse
