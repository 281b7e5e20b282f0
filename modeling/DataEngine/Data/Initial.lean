import DataEngine.Config.Lookup
import DataEngine.Data.Shape

/-!
The points there are when the data centre has been set up, told by the files.

The devices of the tasks that collect are gone through, each as often as it is listed, and every
time with the table it has in the end.
-/

namespace DataEngine.DataStorage

open Json ConfigParse Lib.Effect

variable {R : Type}

/-- A device that has the shape of its table, or none, has no points without a section. -/
lemma Shapely.fresh {table : String → Value R} {s : Store R} (hs : Shapely table s)
    (name : String) : Fresh (table name) name s := by
  intro t sec ht hnone
  obtain hfollows | hempty := hs name
  · have hsec : sec ∉ names ((table name).get "param") := fun hmem =>
      hnone sec hmem (sectionType_of_typeName ht)
    rw [hfollows t sec ht, get_of_not_mem hsec]
    rfl
  · exact hempty t

/-- The devices that have been gone through have the shape of their tables, and no others any
points. -/
structure Begun (table : String → Value R) (ns : List String) (s : Store R) : Prop where
  follows (name : String) : name ∈ ns → Follows (table name) name s
  others (name : String) : name ∉ ns → ∀ t, (slot s name t).vals = []
  typed (name : String) : (slot s name .unknown).vals = []

lemma Begun.shapely {table : String → Value R} {ns : List String} {s : Store R}
    (h : Begun table ns s) : Shapely table s := fun name => by
  by_cases hname : name ∈ ns
  · exact .inl (h.follows name hname)
  · exact .inr (h.others name hname)

lemma sectionType_ne_unknown (sec : String) : sectionType sec ≠ .unknown := by
  unfold sectionType
  split_ifs <;> simp

/-- One more device. -/
lemma Begun.step {table : String → Value R} (hlast : ∀ name, LastAsLong ((table name).get "param"))
    {ns : List String} {s s' : Store R} (h : Begun table ns s) {devName : String}
    (hdata : initData devName (table devName) s = .ok s') : Begun table (ns ++ [devName]) s' := by
  have hfollows := (follows_iff hdata).mpr ⟨hlast devName, h.shapely.fresh devName⟩
  obtain ⟨htable, hparam⟩ := objects_of_initData hdata
  rw [initData_of_objects htable hparam] at hdata
  have hsame {name : String} (hname : name ≠ devName) := initSections_other hdata hname
  refine ⟨fun name hmem t sec ht => ?_, fun name hmem t => ?_, fun name => ?_⟩
  · by_cases hname : name = devName
    · subst hname
      exact hfollows t sec ht
    · have hold : name ∈ ns := by simpa [hname] using hmem
      rw [hsame hname]
      exact h.follows name hold t sec ht
  · obtain ⟨hold, hname⟩ : name ∉ ns ∧ name ≠ devName := by simpa [not_or] using hmem
    rw [hsame hname]
    exact h.others name hold t
  · by_cases hname : name = devName
    · subst hname
      rw [initSections_slot hdata, lastOf_eq_none.mpr fun n _ => sectionType_ne_unknown n]
      exact h.typed name
    · rw [hsame hname]
      exact h.typed name

/-- All the devices. -/
lemma begun_run {table : String → Value R} (hlast : ∀ name, LastAsLong ((table name).get "param"))
    {ns : List String} {s : Store R}
    (h : ns.foldlM (fun s devName => initData devName (table devName) s) ∅ = .ok s) :
    Begun table ns s := by
  induction ns using List.reverseRecOn generalizing s with
  | nil =>
    obtain rfl : ∅ = s := by simpa [pure, Except.pure] using h
    have hempty (name : String) (t : DataType) : (slot (∅ : Store R) name t).vals = [] := by
      simp [slot, PointVec.empty]
    exact ⟨fun name hname => by simp at hname, fun name _ t => hempty name t,
      fun name => hempty name .unknown⟩
  | append_singleton ns n ih =>
    rw [List.foldlM_append] at h
    obtain ⟨u, hu, h⟩ := bind_eq_ok.mp h
    rw [List.foldlM_cons] at h
    obtain ⟨u', hstep, h⟩ := bind_eq_ok.mp h
    obtain rfl : u' = s := by simpa [pure, Except.pure] using h
    exact (ih hu).step hlast hstep

/-! ### The contents of the tasks -/

section Contents

variable [Double R]

/-- The devices of the tasks that collect. -/
def devicesListed (ls : List (Listing R)) : List String :=
  (ls.filter fun l => !l.bTrans).map Listing.name

variable (cfg : Config R)

def pointTableOf (name : String) : Value R := (getDeviceCfg cfg name .pointTable).getD .null

variable {cfg}

lemma readListing_eq_ok {bTrans : Bool} {iter : Value R} {l : Listing R}
    (h : readListing bTrans iter = .ok l) :
    l.bTrans = bTrans ∧ ∃ v, iter.member "name" = .ok v ∧ v.asString = .ok l.name := by
  unfold readListing at h
  obtain ⟨v, hv, h⟩ := bind_eq_ok.mp h
  obtain ⟨name, hname, h⟩ := bind_eq_ok.mp h
  cases bTrans with
  | true =>
    obtain rfl := Except.ok.inj h
    exact ⟨rfl, v, hv, hname⟩
  | false =>
    obtain ⟨_, -, h⟩ := bind_eq_ok.mp h
    obtain ⟨_, -, h⟩ := bind_eq_ok.mp h
    obtain rfl := Except.ok.inj h
    exact ⟨rfl, v, hv, hname⟩

/-- Of a task that transmits there are no devices, and of another all. -/
lemma devicesListed_eq {bTrans : Bool} {content : List (Value R)} {ls : List (Listing R)}
    (h : List.Forall₂ (fun iter l => readListing bTrans iter = .ok l) content ls) :
    devicesListed ls = if bTrans then [] else ls.map Listing.name := by
  induction h with
  | nil => simp [devicesListed]
  | cons hl _ ih =>
    have hbTrans := (readListing_eq_ok hl).1
    unfold devicesListed at ih ⊢
    rw [List.filter_cons, hbTrans]
    cases bTrans with
    | true => simpa using ih
    | false => simpa using ih

/-- The inner loop of `init` -/
lemma initDevices_eq {content : List (Value R)} {ls : List (Listing R)}
    (h : List.Forall₂ (fun iter l => readListing false iter = .ok l) content ls) (s : Store R) :
    content.foldlM (fun s iter1 => do
        let devName ← (← iter1.member "name").asString
        initData devName (pointTableOf cfg devName) s) s =
      (ls.map Listing.name).foldlM
        (fun s devName => initData devName (pointTableOf cfg devName) s) s := by
  induction h generalizing s with
  | nil => rfl
  | cons hl _ ih =>
    obtain ⟨-, w, hw, hname⟩ := readListing_eq_ok hl
    rw [List.foldlM_cons, List.map_cons, List.foldlM_cons, hw]
    show ((w.asString >>= fun devName => _) >>= fun u => _) = _
    rw [hname]
    exact bind_congr fun u => ih u

/-- A task whose content has been read sets up its devices, if it collects. -/
lemma initTask_eq {iter : String} {ls : List (Listing R)}
    (h : readContent ((getTaskCfg cfg iter .attribute).getD .null) = .ok ls) (s : Store R) :
    initTask cfg iter s =
      (devicesListed ls).foldlM
        (fun s devName => initData devName (pointTableOf cfg devName) s) s := by
  unfold readContent at h
  obtain ⟨v, hv, h⟩ := bind_eq_ok.mp h
  obtain ⟨bTrans, hbTrans, h⟩ := bind_eq_ok.mp h
  obtain ⟨content, hcontent, h⟩ := bind_eq_ok.mp h
  have hread := mapM_eq_ok.mp h
  unfold initTask
  rw [devicesListed_eq hread]
  simp only [hv, bind, Except.bind, hbTrans, hcontent]
  cases bTrans with
  | true => rfl
  | false => exact initDevices_eq hread s

/-- The devices are set up in the order in which they are listed. -/
lemma init_eq {ls : List (Listing R)} (h : listings cfg = .ok ls) : init cfg =
    (devicesListed ls).foldlM
      (fun s devName => initData devName (pointTableOf cfg devName) s) ∅ := by
  obtain ⟨contents, hcontents, hflatten⟩ := bind_eq_ok.mp h
  obtain rfl := Except.ok.inj hflatten
  have hread := mapM_eq_ok.mp hcontents
  unfold init
  generalize (∅ : Store R) = s
  generalize getTaskName cfg = names at hread ⊢
  clear hcontents hflatten h
  induction hread generalizing s with
  | nil => rfl
  | @cons name ls names contents hname _ ih =>
    have happend : devicesListed (ls :: contents).flatten =
        devicesListed ls ++ devicesListed contents.flatten := by
      simp [devicesListed]
    rw [List.foldlM_cons, initTask_eq hname, happend, List.foldlM_append]
    exact bind_congr fun u => ih u

/-! ### The points -/

/-- The point table of a device, by the files. -/
def HasTable (root : Root R) (ls : List (Listing R)) (name : String) (table : Value R) : Prop :=
  ∃ l, listedDevice root ls name = some l ∧ Stored root.devStore l.devTypeName .pointTable table

omit [Double R] in
/-- A device with a table is one that is set up. -/
lemma HasTable.listed {root : Root R} {ls : List (Listing R)} {name : String} {table : Value R}
    (h : HasTable root ls name table) : name ∈ devicesListed ls := by
  obtain ⟨l, hl, -⟩ := h
  obtain ⟨hmem, hdevice, rfl⟩ := lastListed_eq_some hl
  exact List.mem_map.mpr
    ⟨l, List.mem_filter.mpr ⟨hmem, (Bool.and_eq_true_iff.mp hdevice).1⟩, rfl⟩

section Points

variable {root : Root R} {s : Store R} (htidy : StoreTidy root.devStore)
  (hparse : parse root = .ok cfg) {ls : List (Listing R)} (hls : listings cfg = .ok ls)

include htidy hparse hls

lemma pointTable_iff (name : String) (table : Value R) :
    getDeviceCfg cfg name .pointTable = some table ↔ HasTable root ls name table := by
  rw [getDeviceCfg_iff htidy hparse hls, HasTable]
  simp

/-- What `init` has gone through in the end. -/
lemma begun_of_init (hinit : init cfg = .ok s) (hlast : ∀ devTypeName table,
      Stored root.devStore devTypeName .pointTable table → LastAsLong (table.get "param")) :
    Begun (pointTableOf cfg) (devicesListed ls) s := by
  refine begun_run (fun name => ?_) ((init_eq hls).symm.trans hinit)
  rcases htable : getDeviceCfg cfg name .pointTable with _ | table
  · rw [pointTableOf, htable]
    exact fun n hn => by simp [names, Value.get, Value.getMemberNames, Except.toOption] at hn
  · obtain ⟨l, -, hstored⟩ := (pointTable_iff htidy hparse hls name table).mp htable
    rw [pointTableOf, htable]
    exact hlast _ _ hstored

/-- Every type of every name has as many points as the table of the name says. -/
lemma vals_of_init (hbegun : Begun (pointTableOf cfg) (devicesListed ls) s) {type : DataType}
    {sec : String} (hsec : typeName type = some sec) (name : String) :
    (slot s name type).vals =
      List.replicate (((pointTableOf cfg name).get "param").get sec).size (.int32 0) := by
  by_cases hname : name ∈ devicesListed ls
  · exact hbegun.follows name hname type sec hsec
  · have hnone : getDeviceCfg cfg name .pointTable = none := by
      by_contra hsome
      obtain ⟨table, htable⟩ := Option.ne_none_iff_exists'.mp hsome
      exact hname ((pointTable_iff htidy hparse hls name table).mp htable).listed
    rw [hbegun.others name hname, pointTableOf, hnone]
    rfl

end Points

/-- **The points at the start**: after the data centre has been set up, a point can be read
exactly if the table of its device, by the files, has a row for it, and it reads zero. The
device has the table of the type it is listed with last. -/
theorem init_points {root : Root R} {s : Store R} (htidy : Tidy root)
    (hparse : parse root = .ok cfg) (hinit : init cfg = .ok s) (hlast : ∀ devTypeName table,
      Stored root.devStore devTypeName .pointTable table → LastAsLong (table.get "param")) :
    ∃ ls, listings cfg = .ok ls ∧ ∀ name type pointId v,
      (exec (getValue name type pointId) s).1 = .ok (some v) ↔
        v = .int32 0 ∧ ∃ table sec, HasTable root ls name table ∧ typeName type = some sec ∧
          0 ≤ pointId ∧ pointId < ((table.get "param").get sec).size := by
  obtain ⟨-, ls, -, -, hls, -⟩ := parse_eq_ok hparse
  refine ⟨ls, hls, fun name type pointId v => ?_⟩
  obtain ⟨s', -, hexec⟩ := getValue_spec s name type pointId
  have hbegun := begun_of_init htidy.devStore hparse hls hinit hlast
  rw [hexec, Except.ok.injEq]
  unfold cells PointVec.get?
  rcases hsec : typeName type with _ | sec
  · obtain rfl : type = .unknown := by
      cases type <;> first | rfl | cases hsec
    simp [hbegun.typed name]
  · rw [vals_of_init htidy.devStore hparse hls hbegun hsec name]
    rcases htable : getDeviceCfg cfg name .pointTable with _ | table
    · have hno (table : Value R) : ¬ HasTable root ls name table := fun hhas => by
        cases htable.symm.trans ((pointTable_iff htidy.devStore hparse hls name table).mpr hhas)
      simp [pointTableOf, htable, hno, Value.get, Value.size]
    · have hhas (table' : Value R) : HasTable root ls name table' ↔ table' = table := by
        rw [← pointTable_iff htidy.devStore hparse hls, htable, Option.some.injEq, eq_comm]
      simp only [pointTableOf, htable, Option.getD_some, hhas, Option.some.injEq,
        exists_eq_left', exists_and_left, exists_eq_left]
      split_ifs with h0
      · rw [List.getElem?_replicate]
        split_ifs with hlt
        · have hin : pointId < ((table.get "param").get sec).size := by omega
          simp [h0, hin, eq_comm]
        · have hout : ¬ pointId < ((table.get "param").get sec).size := by omega
          simp [hout]
      · simp [h0]

end Contents

lemma meterTable_lastAsLong : LastAsLong (meterTable.get "param") := fun n hn hsig _ => by
  have hmeasure : n = "measure" := by
    simpa [names, meterTable, Value.get, Value.getMemberNames, Except.toOption] using hn
  subst hmeasure
  cases hsig

lemma init_meters {cfg : Config ℚ} (h : parse meters = .ok cfg) : ∃ s, init cfg = .ok s := by
  have hok : ((parse meters).toOption.bind fun cfg => (init cfg).toOption).isSome = true := by
    decide +kernel
  rw [h] at hok
  rcases hinit : init cfg with e | s
  · simp [Except.toOption, hinit] at hok
  · exact ⟨s, rfl⟩

/-- The meter has points for its two rows, and no third. -/
theorem meter_points : ∃ cfg s, parse meters = .ok cfg ∧ init cfg = .ok s ∧
    (exec (getValue "A" .measure 1) s).1 = .ok (some (.int32 0)) ∧
    ∀ v, (exec (getValue "A" .measure 2) s).1 ≠ .ok (some v) := by
  obtain ⟨cfg, hcfg⟩ := exists_meters
  obtain ⟨s, hs⟩ := init_meters hcfg
  obtain ⟨ls, hls, hpoints⟩ := init_points meters_tidy hcfg hs fun _ table hstored =>
    (stored_meters.mp hstored).2 ▸ meterTable_lastAsLong
  obtain ⟨l, hl, htype⟩ := listed_meter hcfg hls
  refine ⟨cfg, s, hcfg, hs, (hpoints "A" .measure 1 _).mpr ⟨rfl, meterTable, "measure",
    ⟨l, hl, stored_meters.mpr ⟨htype, rfl⟩⟩, rfl, by decide, by decide⟩, fun v hv => ?_⟩
  obtain ⟨-, table, sec, ⟨l', hl', hstored⟩, hsec, -, hlt⟩ := (hpoints "A" .measure 2 v).mp hv
  obtain ⟨-, rfl⟩ := stored_meters.mp hstored
  obtain rfl := Option.some.inj hsec
  exact absurd hlt (by decide)

end DataEngine.DataStorage
