import DataEngine.Task.StartUp

/-!
The grouping of the devices of a task.

Devices of one type share a protocol configuration, which is that of the first of them. Every
device adds its name to it, and every device puts in the plug-in of its own template.
-/

namespace DataEngine.StartUp

open Json ConfigParse Lib.Effect

variable {R : Type}

/-! ### Values that are changed -/

lemma lookup_filter_ne (ms : List (String × Value R)) {k key : String} (h : k ≠ key) :
    (ms.filter fun m => m.1 != key).lookup k = ms.lookup k := by
  induction ms with
  | nil => rfl
  | cons m ms ih =>
    obtain ⟨k', v⟩ := m
    by_cases hk : k' = key
    · subst hk
      have hne : (k == k') = false := by simpa using h
      rw [List.filter_cons_of_neg (by simp), ih, List.lookup_cons, hne]
    · rw [List.filter_cons_of_pos (by simpa using hk), List.lookup_cons, List.lookup_cons, ih]

lemma set_eq_ok {v w x : Value R} {key : String} (h : v.set key x = .ok w) :
    v.isObj = true ∧ w.isObj = true ∧ w.get key = x ∧ ∀ k ≠ key, w.get k = v.get k := by
  cases v with
  | null =>
    obtain rfl := Except.ok.inj h
    refine ⟨rfl, rfl, by simp [Value.get], fun k hk => ?_⟩
    have hk' : (k == key) = false := by simpa using hk
    simp [Value.get, List.lookup_cons, hk']
  | object ms =>
    obtain rfl := Except.ok.inj h
    refine ⟨rfl, rfl, by simp [Value.get], fun k hk => ?_⟩
    have hk' : (k == key) = false := by simpa using hk
    simp [Value.get, List.lookup_cons, hk', lookup_filter_ne ms hk]
  | _ => simp [Value.set] at h

lemma append_eq_ok {v w x : Value R} (h : v.append x = .ok w) :
    w = .array (v.elements ++ [x]) := by
  cases v with
  | null | array xs =>
    obtain rfl := Except.ok.inj h
    rfl
  | _ => simp [Value.append] at h

lemma appendTo_eq_ok {v w : Value R} {key name : String} (h : appendTo v key name = .ok w) :
    v.isObj = true ∧ w.isObj = true ∧
      w.get key = .array ((v.get key).elements ++ [.string name]) ∧
      ∀ k ≠ key, w.get k = v.get k := by
  unfold appendTo at h
  obtain ⟨x, hx, h⟩ := bind_eq_ok.mp h
  obtain ⟨y, hy, h⟩ := bind_eq_ok.mp h
  obtain ⟨hv, hw, hget, hother⟩ := set_eq_ok h
  obtain ⟨-, rfl⟩ := Value.member_eq_ok hx
  exact ⟨hv, hw, hget.trans (append_eq_ok hy), hother⟩

variable [Double R]

/-! ### Groups -/

/-- The device of an entry of the content, and its type. -/
def deviceOf (iter : Value R) : Except Fault (String × String) := do
  let deviceName ← (← iter.member "name").asString
  let deviceTypeName ← (← iter.member "devTypeName").asString
  .ok (deviceName, deviceTypeName)

def devicesOf (cfgAttr : Value R) : Except Fault (List (String × String)) := do
  (← contentOf cfgAttr).mapM deviceOf

variable (cfg : Config R)

omit [Double R] in
/-- The protocol configuration of a device, `null` if there is none. -/
def protocolOf (deviceName : String) : Value R :=
  (getDeviceCfg cfg deviceName .protocol).getD .null

/-- The devices of a type, each as often as it is listed, without those that have no protocol
configuration. -/
def namesOf (devices : List (String × String)) (type : String) : List String :=
  (devices.filter fun d => d.2 = type && !(protocolOf cfg d.1).empty).map Prod.fst

/-- The devices are partitioned by their types: a type with devices has one configuration, which
has their names and no others and the plug-in of its own template. -/
structure Partitions (devices : List (String × String)) (m : Map String (Value R)) : Prop where
  mem : ∀ t, t ∈ m ↔ namesOf cfg devices t ≠ []
  names : ∀ (t : String) (e : Value R), m[t]? = some e →
    e.get "names" = .array ((namesOf cfg devices t).map .string)
  plugName : ∀ (t : String) (e : Value R), m[t]? = some e →
    plugNameOf cfg e = .ok (e.get "plugName")

/-- The first device of a type brings no names along in its configuration, and its plug-in is
that of the last one. -/
structure Uniform (devices : List (String × String)) : Prop where
  names : ∀ t d, (namesOf cfg devices t).head? = some d →
    ((protocolOf cfg d).get "names").elements = []
  plugName : ∀ t d d', (namesOf cfg devices t).head? = some d →
    (namesOf cfg devices t).getLast? = some d' →
    plugNameOf cfg (protocolOf cfg d) = plugNameOf cfg (protocolOf cfg d')

/-- The configuration of the devices `d :: ds`, as the loop leaves it. -/
structure Group (d : String) (ds : List String) (e : Value R) : Prop where
  object : e.isObj = true
  first : (protocolOf cfg d).isObj = true
  names : e.get "names" =
    .array (((protocolOf cfg d).get "names").elements ++ (d :: ds).map .string)
  template : e.get "template" = (protocolOf cfg d).get "template"
  plugName : ∀ d', (d :: ds).getLast? = some d' →
    plugNameOf cfg (protocolOf cfg d') = .ok (e.get "plugName")

/-- What the loop has made of the devices so far. -/
def Groups (devices : List (String × String)) (m : Map String (Value R)) : Prop :=
  ∀ t, namesOf cfg devices t = [] ∧ m[t]? = none ∨
    ∃ d ds e, namesOf cfg devices t = d :: ds ∧ m[t]? = some e ∧ Group cfg d ds e

variable {cfg}

lemma plugNameOf_congr {v w : Value R} (hv : v.isObj = true) (hw : w.isObj = true)
    (h : v.get "template" = w.get "template") : plugNameOf cfg v = plugNameOf cfg w := by
  simp only [plugNameOf, Value.member, hv, hw, h]

omit [Double R] in
lemma namesOf_snoc (devices : List (String × String)) (d : String × String) (t : String) :
    namesOf cfg (devices ++ [d]) t = namesOf cfg devices t ++
      if d.2 = t ∧ (protocolOf cfg d.1).empty = false then [d.1] else [] := by
  by_cases h : d.2 = t ∧ (protocolOf cfg d.1).empty = false
  · simp [namesOf, h]
  · rw [if_neg h, List.append_nil, namesOf, namesOf, List.filter_append]
    have hnot : (d.2 = t && !(protocolOf cfg d.1).empty) = false := by
      simpa using fun h1 => by simpa using not_and.mp h h1
    rw [List.filter_cons_of_neg (by simp [hnot]), List.filter_nil, List.append_nil]

/-- One device. -/
lemma arrangeDevice_eq_ok {m m' : Map String (Value R)} {iter : Value R}
    (h : arrangeDevice cfg m iter = .ok m') :
    ∃ d t, deviceOf iter = .ok (d, t) ∧
      ((protocolOf cfg d).empty = true ∧ m' = m ∨
        (protocolOf cfg d).empty = false ∧ ∃ entry e plug,
          appendTo (m[t]?.getD (protocolOf cfg d)) "names" d = .ok entry ∧
          plugNameOf cfg (protocolOf cfg d) = .ok plug ∧ entry.set "plugName" plug = .ok e ∧
          m' = m.insert t e) := by
  unfold arrangeDevice at h
  obtain ⟨v, hv, h⟩ := bind_eq_ok.mp h
  obtain ⟨d, hd, h⟩ := bind_eq_ok.mp h
  obtain ⟨w, hw, h⟩ := bind_eq_ok.mp h
  obtain ⟨t, ht, h⟩ := bind_eq_ok.mp h
  refine ⟨d, t, ?_, ?_⟩
  · simp [deviceOf, hv, hd, hw, ht, bind, Except.bind]
  · change (if (protocolOf cfg d).empty = true then _ else _) = _ at h
    by_cases hempty : (protocolOf cfg d).empty = true
    · rw [if_pos hempty] at h
      exact .inl ⟨hempty, (Except.ok.inj h).symm⟩
    · rw [if_neg hempty] at h
      obtain ⟨entry, hentry, h⟩ := bind_eq_ok.mp h
      obtain ⟨plug, hplug, h⟩ := bind_eq_ok.mp h
      obtain ⟨e, he, h⟩ := bind_eq_ok.mp h
      exact .inr ⟨by simpa using hempty, entry, e, plug, hentry, hplug, he,
        (Except.ok.inj h).symm⟩

/-- A device makes a group of its own, or joins that of its type. -/
lemma groups_step {devices : List (String × String)} {m m' : Map String (Value R)}
    {iter : Value R} (hm : Groups cfg devices m) (h : arrangeDevice cfg m iter = .ok m') :
    ∃ d, deviceOf iter = .ok d ∧ Groups cfg (devices ++ [d]) m' := by
  obtain ⟨d, t, hd, ⟨hempty, rfl⟩ | ⟨hempty, entry, e, plug, hentry, hplug, he, rfl⟩⟩ :=
    arrangeDevice_eq_ok h
  · refine ⟨(d, t), hd, fun u => ?_⟩
    rw [namesOf_snoc, if_neg (by simp [hempty]), List.append_nil]
    exact hm u
  refine ⟨(d, t), hd, fun u => ?_⟩
  rw [namesOf_snoc, Map.getElem?_insert]
  by_cases hu : u = t
  swap
  · rw [if_neg fun hand => hu hand.1.symm, List.append_nil, if_neg hu]
    exact hm u
  subst hu
  rw [if_pos ⟨rfl, hempty⟩, if_pos rfl]
  right
  obtain ⟨hbase, -, hnames, hother⟩ := appendTo_eq_ok hentry
  obtain ⟨-, hobj, hplugName, hkeep⟩ := set_eq_ok he
  have hnames' : e.get "names" = entry.get "names" := hkeep "names" (by decide)
  have htemplate : e.get "template" = (m[u]?.getD (protocolOf cfg d)).get "template" :=
    (hkeep "template" (by decide)).trans (hother "template" (by decide))
  obtain ⟨hnone, hget⟩ | ⟨d₀, ds, e₀, hsome, hget, hgroup⟩ := hm u
  · rw [hget, Option.getD_none] at hbase hnames htemplate
    refine ⟨d, [], e, by rw [hnone]; rfl, rfl, hobj, hbase, hnames'.trans hnames, htemplate, ?_⟩
    rintro d' hlast
    obtain rfl : d = d' := by simpa using hlast
    rw [hplug, hplugName]
  · rw [hget, Option.getD_some] at hbase hnames htemplate
    refine ⟨d₀, ds ++ [d], e, by rw [hsome]; rfl, rfl, hobj, hgroup.first, ?_,
      htemplate.trans hgroup.template, ?_⟩
    · rw [hnames', hnames, hgroup.names]
      simp [Value.elements]
    · rintro d' hlast
      obtain rfl : d = d' := by
        rw [← List.cons_append, List.getLast?_concat] at hlast
        exact Option.some.inj hlast
      rw [hplug, hplugName]

/-- The groups of a whole content. -/
lemma groups_run {content : List (Value R)} {m : Map String (Value R)}
    (h : content.foldlM (arrangeDevice cfg) ∅ = .ok m) :
    ∃ devices, content.mapM deviceOf = .ok devices ∧ Groups cfg devices m := by
  induction content using List.reverseRecOn generalizing m with
  | nil =>
    obtain rfl : ∅ = m := by simpa [pure, Except.pure] using h
    exact ⟨[], rfl, fun t => .inl ⟨rfl, by simp⟩⟩
  | append_singleton content iter ih =>
    rw [List.foldlM_append] at h
    obtain ⟨m₀, hm₀, h⟩ := bind_eq_ok.mp h
    rw [List.foldlM_cons] at h
    obtain ⟨m₁, hstep, h⟩ := bind_eq_ok.mp h
    obtain rfl : m₁ = m := by simpa [pure, Except.pure] using h
    obtain ⟨devices, hdevices, hgroups⟩ := ih hm₀
    obtain ⟨d, hd, hgroups⟩ := groups_step hgroups hstep
    refine ⟨devices ++ [d], ?_, hgroups⟩
    simp [List.mapM_append, hdevices, hd, bind, Except.bind, pure, Except.pure]

lemma Groups.partitions_iff {devices : List (String × String)} {m : Map String (Value R)}
    (h : Groups cfg devices m) : Partitions cfg devices m ↔ Uniform cfg devices := by
  -- the first device of a type, and the configuration that is there for it
  have hfirst {t d : String} (hd : (namesOf cfg devices t).head? = some d) :
      ∃ ds e, namesOf cfg devices t = d :: ds ∧ m[t]? = some e ∧ Group cfg d ds e := by
    obtain ⟨hnone, -⟩ | ⟨d', ds, e, hsome, hget, hgroup⟩ := h t
    · simp [hnone] at hd
    · obtain rfl : d' = d := by simpa [hsome] using hd
      exact ⟨ds, e, hsome, hget, hgroup⟩
  have hplug {d : String} {ds : List String} {e : Value R} (hgroup : Group cfg d ds e) :
      plugNameOf cfg e = plugNameOf cfg (protocolOf cfg d) :=
    plugNameOf_congr hgroup.object hgroup.first hgroup.template
  constructor
  · intro hpart
    refine ⟨fun t d hd => ?_, fun t d d' hd hd' => ?_⟩
    · obtain ⟨ds, e, hnames, hget, hgroup⟩ := hfirst hd
      have heq := hpart.names t e hget
      rw [hgroup.names, hnames, Value.array.injEq] at heq
      simpa using heq
    · obtain ⟨ds, e, hnames, hget, hgroup⟩ := hfirst hd
      rw [hnames] at hd'
      rw [← hplug hgroup, hgroup.plugName d' hd', hpart.plugName t e hget]
  · intro huniform
    refine ⟨fun t => ?_, fun t e he => ?_, fun t e he => ?_⟩
    · rw [Std.ExtTreeMap.mem_iff_isSome_getElem?]
      obtain ⟨hnone, hget⟩ | ⟨d, ds, e, hsome, hget, -⟩ := h t
      · simp [hnone, hget]
      · simp [hsome, hget]
    all_goals
      obtain ⟨-, hget⟩ | ⟨d, ds, e', hsome, hget, hgroup⟩ := h t
      · rw [hget] at he
        simp at he
      obtain rfl : e' = e := Option.some.inj (hget.symm.trans he)
    · rw [hgroup.names, huniform.names t d (by rw [hsome]; rfl), hsome]
      rfl
    · obtain ⟨d', hlast⟩ : ∃ d', (d :: ds).getLast? = some d' :=
        ⟨_, List.getLast?_eq_some_getLast (by simp)⟩
      rw [hplug hgroup, huniform.plugName t d d' (by rw [hsome]; rfl) (by rw [hsome]; exact hlast)]
      exact hgroup.plugName d' hlast

/-! ### The tasks -/

variable (cfg) in
omit [Double R] in
def attributesOf (name : String) : Value R := (getTaskCfg cfg name .attribute).getD .null

variable (cfg) in
/-- The task is one that collects. -/
def Collects (name : String) : Prop :=
  ((attributesOf cfg name).member "bTrans" >>= Value.asBool) = .ok false

lemma arrangeTask_collects {name : String} (hcoll : Collects cfg name)
    {task : Value R × String × List (Value R)} (h : arrangeTask cfg name = .ok task) :
    ∃ m, arrangeCollCfg cfg (attributesOf cfg name) = .ok m ∧ task.2.2 = m.values := by
  obtain ⟨v, hv, hfalse⟩ := bind_eq_ok.mp hcoll
  unfold arrangeTask at h
  obtain ⟨channel, -, h⟩ := bind_eq_ok.mp h
  obtain ⟨v', hv', h⟩ := bind_eq_ok.mp h
  obtain ⟨bTrans, hbTrans, h⟩ := bind_eq_ok.mp h
  obtain rfl : v = v' := Except.ok.inj (hv.symm.trans hv')
  obtain rfl : false = bTrans := Except.ok.inj (hfalse.symm.trans hbTrans)
  obtain ⟨m, hm, h⟩ := bind_eq_ok.mp h
  exact ⟨m, hm, by rw [← Except.ok.inj h]⟩

lemma arrangeTask_name {name : String} {task : Value R × String × List (Value R)}
    (h : arrangeTask cfg name = .ok task) : task.2.1 = name := by
  unfold arrangeTask at h
  obtain ⟨channel, -, h⟩ := bind_eq_ok.mp h
  obtain ⟨v, -, h⟩ := bind_eq_ok.mp h
  obtain ⟨bTrans, -, h⟩ := bind_eq_ok.mp h
  cases bTrans <;>
  · obtain ⟨m, -, h⟩ := bind_eq_ok.mp h
    rw [← Except.ok.inj h]

/-- What `arrangeCfg` keeps for a task that collects are the groups of its devices. -/
lemma arrangeCfg_groups {cs : List (Value R)} {ps : List (String × List (Value R))}
    (h : arrangeCfg cfg = .ok (cs, ps)) {name : String} (hname : name ∈ getTaskName cfg)
    (hcoll : Collects cfg name) :
    ∃ devices m, devicesOf (attributesOf cfg name) = .ok devices ∧
      arrangeCollCfg cfg (attributesOf cfg name) = .ok m ∧
      (∀ vs, (name, vs) ∈ ps ↔ vs = m.values) ∧ Groups cfg devices m := by
  unfold arrangeCfg at h
  obtain ⟨tasks, htasks, h⟩ := bind_eq_ok.mp h
  have hps : ps = tasks.map Prod.snd := by
    have hunzip : tasks.unzip = (cs, ps) := Except.ok.inj h
    rw [List.unzip_eq_map] at hunzip
    exact (Prod.mk.inj hunzip).2.symm
  obtain ⟨task, htask⟩ := exists_mapM_eq_ok.mp ⟨tasks, htasks⟩ name hname
  obtain ⟨m, hm, hvalues⟩ := arrangeTask_collects hcoll htask
  obtain ⟨content, hcontent, hloop⟩ := bind_eq_ok.mp hm
  obtain ⟨devices, hdevices, hgroups⟩ := groups_run hloop
  refine ⟨devices, m, bind_eq_ok.mpr ⟨content, hcontent, hdevices⟩, hm, fun vs => ?_, hgroups⟩
  rw [hps, List.mem_map, ← hvalues]
  constructor
  · rintro ⟨task', hmem, hsnd⟩
    obtain ⟨name', -, htask'⟩ := (mem_of_mapM htasks).mp hmem
    obtain rfl : name = name' := by
      rw [← arrangeTask_name htask', hsnd]
    rw [Except.ok.inj (htask.symm.trans htask'), hsnd]
  · rintro rfl
    exact ⟨task, (mem_of_mapM htasks).mpr ⟨name, hname, htask⟩,
      Prod.ext (arrangeTask_name htask) rfl⟩

/-- **Grouping**: the configurations `arrangeCfg` keeps for a task that collects partition its
devices by their types exactly if the first device of each type brings no names along and has the
plug-in of the last one. -/
theorem arrangeCfg_partitions_iff {cs : List (Value R)} {ps : List (String × List (Value R))}
    (h : arrangeCfg cfg = .ok (cs, ps)) {name : String} (hname : name ∈ getTaskName cfg)
    (hcoll : Collects cfg name) :
    ∃ devices m, devicesOf (attributesOf cfg name) = .ok devices ∧
      arrangeCollCfg cfg (attributesOf cfg name) = .ok m ∧
      (∀ vs, (name, vs) ∈ ps ↔ vs = m.values) ∧
      (Partitions cfg devices m ↔ Uniform cfg devices) := by
  obtain ⟨devices, m, hdevices, hm, hvalues, hgroups⟩ := arrangeCfg_groups h hname hcoll
  exact ⟨devices, m, hdevices, hm, hvalues, hgroups.partitions_iff⟩

/-- It is so if every device is filed under the type it is listed with, and the configurations of
the types have no names. -/
lemma Uniform.of_filed {devices : List (String × String)}
    (hfiled : ∀ d ∈ devices, cfg.mapDeviceNameCfg[d.1]? = some d.2)
    (hnames : ∀ d ∈ devices, ((protocolOf cfg d.1).get "names").elements = []) :
    Uniform cfg devices := by
  have hmem {t d : String} (h : d ∈ namesOf cfg devices t) : (d, t) ∈ devices := by
    obtain ⟨p, hp, rfl⟩ := List.mem_map.mp h
    obtain ⟨hmem, hkept⟩ := List.mem_filter.mp hp
    obtain rfl : p.2 = t := by simpa using (Bool.and_eq_true_iff.mp hkept).1
    exact hmem
  have hprotocol {t d : String} (h : d ∈ namesOf cfg devices t) : protocolOf cfg d =
      ((cfg.mapDeviceCfg[t]?).bind fun store => store[CfgType.protocol]?).getD .null := by
    simp [protocolOf, getDeviceCfg, hfiled _ (hmem h)]
  refine ⟨fun t d hd => hnames _ (hmem (List.mem_of_mem_head? hd)), fun t d d' hd hd' => ?_⟩
  rw [hprotocol (List.mem_of_mem_head? hd), hprotocol (List.mem_of_mem_getLast? hd')]

/-! ### A device of two types -/

/-- A root with two device types, whose templates differ in their plug-ins, and one task. -/
def rootOf (content : List (Value ℚ)) : Root ℚ where
  taskCfg := [⟨"T.json", .reg, some (.object [("enable", .bool true), ("name", .string "T"),
    ("param", .object [
      ("attribute", .object [("bTrans", .bool false), ("content", .array content)]),
      ("channel", .object [("template", .string "TCPClient"), ("content", .object [])])])])⟩]
  devStore := [("V", "P"), ("W", "Q")].map fun t =>
    ⟨t.1, .dir, some [⟨"Protocol.json", .reg, some (.object [("template", .string t.2)])⟩]⟩
  transStore := []
  composite := none
  template
    | .protocol => [("P", "M"), ("Q", "N")].map fun t =>
      ⟨t.1, .reg, some (.object [("name", .string t.1), ("plugName", .string t.2)])⟩
    | _ => []

def deviceEntry (name type : String) : Value ℚ :=
  .object [("name", .string name), ("devTypeName", .string type)]

lemma eq_ok_of_toOption {ε α : Type} {x : Except ε α} {a : α} (h : x.toOption = some a) :
    x = .ok a := by
  cases x with
  | error e => simp [Except.toOption] at h
  | ok b => rw [Option.some.inj h]

/-- What is read of a content of devices, when it is arranged. -/
lemma exists_arranged (content : List (Value ℚ)) (devices : List (String × String))
    (h : (parse (rootOf content)).toOption.map (fun cfg =>
      ((arrangeCfg cfg).toOption.isSome, getTaskName cfg)) = some (true, ["T"]))
    (h' : (parse (rootOf content)).toOption.map (fun cfg =>
      ((devicesOf (attributesOf cfg "T")).toOption,
        ((attributesOf cfg "T").member "bTrans" >>= Value.asBool).toOption)) =
          some (some devices, some false)) :
    ∃ cfg cs ps, parse (rootOf content) = .ok cfg ∧ arrangeCfg cfg = .ok (cs, ps) ∧
      "T" ∈ getTaskName cfg ∧ Collects cfg "T" ∧
      devicesOf (attributesOf cfg "T") = .ok devices := by
  obtain ⟨cfg, hcfg, hval⟩ := Option.map_eq_some_iff.mp h
  obtain ⟨cfg', hcfg', hval'⟩ := Option.map_eq_some_iff.mp h'
  obtain rfl : cfg = cfg' := Option.some.inj (hcfg.symm.trans hcfg')
  obtain ⟨harranged, htasks⟩ := Prod.mk.inj hval
  obtain ⟨hdevices, hcoll⟩ := Prod.mk.inj hval'
  obtain ⟨⟨cs, ps⟩, harranged⟩ := Option.isSome_iff_exists.mp harranged
  exact ⟨cfg, cs, ps, eq_ok_of_toOption hcfg, eq_ok_of_toOption harranged, by simp [htasks],
    eq_ok_of_toOption hcoll, eq_ok_of_toOption hdevices⟩

/-- Two devices of each of two types, by turns. -/
def fourDevices : List (String × String) := [("A", "V"), ("B", "W"), ("C", "V"), ("D", "W")]

/-- Every device is listed with one type, so they are filed under what they are listed with. -/
theorem four_devices_arranged : ∃ cfg m,
    parse (rootOf (fourDevices.map fun d => deviceEntry d.1 d.2)) = .ok cfg ∧
      arrangeCollCfg cfg (attributesOf cfg "T") = .ok m ∧
      namesOf cfg fourDevices "V" = ["A", "C"] ∧ namesOf cfg fourDevices "W" = ["B", "D"] ∧
      Partitions cfg fourDevices m := by
  obtain ⟨cfg, cs, ps, hcfg, harranged, hname, hcoll, hdevices⟩ :=
    exists_arranged (fourDevices.map fun d => deviceEntry d.1 d.2) fourDevices
      (by decide +kernel) (by decide +kernel)
  obtain ⟨devices, m, hdevices', hm, -, hiff⟩ := arrangeCfg_partitions_iff harranged hname hcoll
  obtain rfl := Except.ok.inj (hdevices.symm.trans hdevices')
  have hread : (parse (rootOf (fourDevices.map fun d => deviceEntry d.1 d.2))).toOption.map
      (fun cfg => (decide (∀ d ∈ fourDevices, cfg.mapDeviceNameCfg[d.1]? = some d.2 ∧
          ((protocolOf cfg d.1).get "names").elements.length = 0),
        namesOf cfg fourDevices "V", namesOf cfg fourDevices "W")) =
      some (true, ["A", "C"], ["B", "D"]) := by decide +kernel
  rw [hcfg] at hread
  obtain ⟨hfiled, hgroups⟩ := Prod.mk.inj (Option.some.inj hread)
  obtain ⟨hV, hW⟩ := Prod.mk.inj hgroups
  have hfiled := of_decide_eq_true hfiled
  exact ⟨cfg, m, hcfg, hm, hV, hW, hiff.mpr (.of_filed (fun d hd => (hfiled d hd).1)
    fun d hd => List.length_eq_zero_iff.mp (hfiled d hd).2)⟩

/-- `A` has the protocol of the last type it is listed with, also where it is listed as the first
device of another type. -/
theorem split_device_arranged : ∃ cfg m,
    parse (rootOf [deviceEntry "A" "V", deviceEntry "B" "V", deviceEntry "A" "W"]) = .ok cfg ∧
      arrangeCollCfg cfg (attributesOf cfg "T") = .ok m ∧
      devicesOf (attributesOf cfg "T") = .ok [("A", "V"), ("B", "V"), ("A", "W")] ∧
      ¬ Partitions cfg [("A", "V"), ("B", "V"), ("A", "W")] m := by
  obtain ⟨cfg, cs, ps, hcfg, harranged, hname, hcoll, hdevices⟩ :=
    exists_arranged [deviceEntry "A" "V", deviceEntry "B" "V", deviceEntry "A" "W"]
      [("A", "V"), ("B", "V"), ("A", "W")] (by decide +kernel) (by decide +kernel)
  obtain ⟨devices, m, hdevices', hm, -, hgroups⟩ := arrangeCfg_groups harranged hname hcoll
  obtain rfl := Except.ok.inj (hdevices.symm.trans hdevices')
  refine ⟨cfg, m, hcfg, hm, hdevices, fun hpart => ?_⟩
  have hplug : (parse (rootOf [deviceEntry "A" "V", deviceEntry "B" "V",
      deviceEntry "A" "W"])).toOption.map (fun cfg =>
        (namesOf cfg [("A", "V"), ("B", "V"), ("A", "W")] "V",
          (plugNameOf cfg (protocolOf cfg "A") >>= Value.asString).toOption,
          (plugNameOf cfg (protocolOf cfg "B") >>= Value.asString).toOption)) =
      some (["A", "B"], some "N", some "M") := by decide +kernel
  rw [hcfg] at hplug
  obtain ⟨hnames, hplug⟩ := Prod.mk.inj (Option.some.inj hplug)
  obtain ⟨hA, hB⟩ := Prod.mk.inj hplug
  have heq := (hgroups.partitions_iff.mp hpart).plugName "V" "A" "B" (by rw [hnames]; rfl)
    (by rw [hnames]; rfl)
  rw [heq, hB] at hA
  exact absurd hA (by decide)

end DataEngine.StartUp
