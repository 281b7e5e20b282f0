import DataEngine.Data.PointMap

/-!
The numbers of points of a device, as its point table gives them.

The sections of a table are gone through in the order of their names. Every name `initData`
does not know stands for the signals, so the last of the names that are not those of another
type decides how many signals there are.
-/

namespace DataEngine.DataStorage

open Json ConfigParse Lib.Effect

variable {R : Type}

/-! ### Names of sections -/

/-- The names `initData` goes through. -/
def names (cfgParam : Value R) : List String := cfgParam.getMemberNames.toOption.getD []

lemma getMemberNames_eq {cfgParam : Value R} (h : cfgParam.isObj = true) :
    cfgParam.getMemberNames = .ok (names cfgParam) := by
  cases cfgParam <;> first | rfl | simp [Value.isObj] at h

lemma names_sorted (cfgParam : Value R) : (names cfgParam).Pairwise (· ≤ ·) := by
  cases cfgParam with
  | object ms => exact List.pairwise_insertionSort (· ≤ ·) _
  | _ => exact .nil

lemma get_of_not_mem {cfgParam : Value R} {sec : String} (h : sec ∉ names cfgParam) :
    cfgParam.get sec = .null := by
  cases cfgParam with
  | object ms =>
    have hkeys : sec ∉ ms.map Prod.fst := fun hmem =>
      h ((List.mem_insertionSort (· ≤ ·)).mpr (List.mem_dedup.mpr hmem))
    have hlookup : ms.lookup sec = none := by
      rw [List.lookup_eq_none_iff]
      rintro ⟨key, v⟩ hm
      have hne : sec ≠ key := fun he => hkeys (he ▸ List.mem_map_of_mem (f := Prod.fst) hm)
      simpa using hne
    simp [Value.get, hlookup]
  | _ => rfl

lemma sectionType_of_typeName {t : DataType} {sec : String} (h : typeName t = some sec) :
    sectionType sec = t := by
  cases t <;> simp [typeName] at h <;> subst h <;> decide

/-- The signals apart, a type has one name only. -/
lemma typeName_sectionType {sec : String} (h : sectionType sec ≠ .signal) :
    typeName (sectionType sec) = some sec := by
  unfold sectionType at h ⊢
  split_ifs at h ⊢ with h1 h2 h3 h4
  · rw [h1]; rfl
  · rw [h2]; rfl
  · rw [h3]; rfl
  · rw [h4]; rfl
  · exact absurd rfl h

/-- The last element of a list in order is the greatest. -/
lemma getLast?_eq_some_of_pairwise {l : List String} (h : l.Pairwise (· ≤ ·)) {n : String} :
    l.getLast? = some n ↔ n ∈ l ∧ ∀ m ∈ l, m ≤ n := by
  induction l using List.reverseRecOn with
  | nil => simp
  | append_singleton l a _ =>
    have hle : ∀ m ∈ l, m ≤ a := fun m hm => (List.pairwise_append.mp h).2.2 m hm a (by simp)
    rw [List.getLast?_concat, Option.some.injEq]
    constructor
    · rintro rfl
      refine ⟨by simp, fun m hm => ?_⟩
      obtain hm | hm := List.mem_append.mp hm
      · exact hle m hm
      · exact (List.mem_singleton.mp hm).le
    · rintro ⟨hn, hmax⟩
      obtain hn | hn := List.mem_append.mp hn
      · exact le_antisymm (hmax a (by simp)) (hle n hn)
      · exact (List.mem_singleton.mp hn).symm

/-- The last of the names that stand for a type. -/
def lastOf (ns : List String) (t : DataType) : Option String :=
  (ns.filter fun n => sectionType n = t).getLast?

lemma lastOf_eq_some {cfgParam : Value R} {t : DataType} {n : String} :
    lastOf (names cfgParam) t = some n ↔
      n ∈ names cfgParam ∧ sectionType n = t ∧
        ∀ m ∈ names cfgParam, sectionType m = t → m ≤ n := by
  unfold lastOf
  rw [getLast?_eq_some_of_pairwise ((names_sorted cfgParam).sublist List.filter_sublist)]
  simp [and_assoc]

lemma lastOf_eq_none {ns : List String} {t : DataType} :
    lastOf ns t = none ↔ ∀ n ∈ ns, sectionType n ≠ t := by
  simp [lastOf]

/-! ### The loop of `initData` -/

/-- One section: the vector of its type is replaced. -/
def initSection (devName : String) (cfgParam : Value R) (s : Store R) (iter : String) :
    Except Fault (Store R) := do
  let cfgData ← cfgParam.member iter
  .ok (setSlot s devName (sectionType iter) (← zeros cfgData.size))

lemma initData_eq (devName : String) (cfgPoint : Value R) (s : Store R) :
    initData devName cfgPoint s = (do
      let cfgParam ← cfgPoint.member "param"
      (← cfgParam.getMemberNames).foldlM (initSection devName cfgParam) s) := rfl

lemma zeros_eq_ok {num : ℕ} {v : PointVec R} (h : zeros num = .ok v) :
    (num : ℤ) ≤ intMax ∧ v.vals = List.replicate num (.int32 0) := by
  unfold zeros at h
  split_ifs at h with hnum
  obtain rfl := Except.ok.inj h
  exact ⟨hnum, rfl⟩

section Loop

variable {devName : String} {cfgParam : Value R} {s s' : Store R}

lemma initSection_eq_ok {iter : String} (h : initSection devName cfgParam s iter = .ok s') :
    ((cfgParam.get iter).size : ℤ) ≤ intMax ∧ ∀ m t,
      (slot s' m t).vals = if m = devName ∧ t = sectionType iter then
        List.replicate (cfgParam.get iter).size (.int32 0) else (slot s m t).vals := by
  unfold initSection at h
  obtain ⟨cfgData, hmember, h⟩ := bind_eq_ok.mp h
  obtain ⟨v, hv, h⟩ := bind_eq_ok.mp h
  obtain rfl := Except.ok.inj h
  obtain ⟨-, rfl⟩ := Value.member_eq_ok hmember
  obtain ⟨hsize, hvals⟩ := zeros_eq_ok hv
  refine ⟨hsize, fun m t => ?_⟩
  rw [slot_setSlot]
  split_ifs with hm
  · exact hvals
  · rfl

/-- What the sections leave: the last one of a type decides. -/
lemma initSections_slot {ns : List String}
    (h : ns.foldlM (initSection devName cfgParam) s = .ok s') (t : DataType) :
    (slot s' devName t).vals = match lastOf ns t with
      | some n => List.replicate (cfgParam.get n).size (.int32 0)
      | none => (slot s devName t).vals := by
  induction ns using List.reverseRecOn generalizing s' with
  | nil =>
    obtain rfl : s = s' := by simpa [pure, Except.pure] using h
    rfl
  | append_singleton ns n ih =>
    rw [List.foldlM_append] at h
    obtain ⟨u, hu, h⟩ := bind_eq_ok.mp h
    rw [List.foldlM_cons] at h
    obtain ⟨u', hstep, h⟩ := bind_eq_ok.mp h
    obtain rfl : u' = s' := by simpa [pure, Except.pure] using h
    rw [(initSection_eq_ok hstep).2, ih hu]
    by_cases ht : sectionType n = t
    · simp [lastOf, ht]
    · have ht' : t ≠ sectionType n := fun he => ht he.symm
      simp [lastOf, ht, ht']

lemma initSections_other {ns : List String}
    (h : ns.foldlM (initSection devName cfgParam) s = .ok s') {m : String} (hm : m ≠ devName)
    (t : DataType) : (slot s' m t).vals = (slot s m t).vals := by
  refine foldlM_inv (P := fun u => (slot u m t).vals = (slot s m t).vals) ?_ rfl h
  intro u n u' hu hstep
  rw [(initSection_eq_ok hstep).2, if_neg fun hand => hm hand.1, hu]

lemma initSections_ok (hobj : cfgParam.isObj = true) {ns : List String} (s : Store R) :
    (∃ s', ns.foldlM (initSection devName cfgParam) s = .ok s') ↔
      ∀ n ∈ ns, ((cfgParam.get n).size : ℤ) ≤ intMax := by
  induction ns generalizing s with
  | nil => simp [pure, Except.pure]
  | cons n ns ih =>
    rw [List.foldlM_cons, List.forall_mem_cons]
    constructor
    · rintro ⟨s', h⟩
      obtain ⟨u, hstep, h⟩ := bind_eq_ok.mp h
      exact ⟨(initSection_eq_ok hstep).1, (ih u).mp ⟨s', h⟩⟩
    · rintro ⟨hn, hns⟩
      obtain ⟨s', h⟩ := (ih (setSlot s devName (sectionType n)
        ⟨List.replicate (cfgParam.get n).size (.int32 0), by simpa using hn⟩)).mpr hns
      refine ⟨s', bind_eq_ok.mpr ⟨_, ?_, h⟩⟩
      simp [initSection, Value.member, hobj, zeros, hn, bind, Except.bind]

end Loop

/-! ### The shape of the store -/

/-- Every type has as many values as its section has entries, all initial; a section that is
not there has none. -/
def Follows (cfgPoint : Value R) (devName : String) (s : Store R) : Prop :=
  ∀ t sec, typeName t = some sec →
    (slot s devName t).vals = List.replicate ((cfgPoint.get "param").get sec).size (.int32 0)

/-- The last name that is none of the four other types is as long as the section of the signals:
it is that section, or has as many entries. -/
def LastAsLong (cfgParam : Value R) : Prop :=
  ∀ n ∈ names cfgParam, sectionType n = .signal →
    (∀ m ∈ names cfgParam, sectionType m = .signal → m ≤ n) →
    (cfgParam.get n).size = (cfgParam.get "signal").size

/-- The table can be gone through: the accesses fit, and an `int` counts every section. -/
structure Sectioned (cfgPoint : Value R) : Prop where
  table : cfgPoint.isObj = true
  param : (cfgPoint.get "param").isObj = true
  size : ∀ n ∈ names (cfgPoint.get "param"),
    (((cfgPoint.get "param").get n).size : ℤ) ≤ intMax

/-- A type without a section had no values before. -/
def Fresh (cfgPoint : Value R) (devName : String) (s : Store R) : Prop :=
  ∀ t sec, typeName t = some sec →
    (∀ n ∈ names (cfgPoint.get "param"), sectionType n ≠ t) → (slot s devName t).vals = []

section Shape

variable {devName : String} {cfgPoint : Value R} {s s' : Store R}

lemma initData_of_objects (h : cfgPoint.isObj = true) (hparam : (cfgPoint.get "param").isObj = true)
    (devName : String) (s : Store R) :
    initData devName cfgPoint s = (names (cfgPoint.get "param")).foldlM
      (initSection devName (cfgPoint.get "param")) s := by
  rw [initData_eq, Value.member, if_pos h]
  change (do (← (cfgPoint.get "param").getMemberNames).foldlM _ s) = _
  rw [getMemberNames_eq hparam]
  rfl

lemma objects_of_initData (h : initData devName cfgPoint s = .ok s') :
    cfgPoint.isObj = true ∧ (cfgPoint.get "param").isObj = true := by
  rw [initData_eq] at h
  obtain ⟨cfgParam, hmember, h⟩ := bind_eq_ok.mp h
  obtain ⟨ns, hns, -⟩ := bind_eq_ok.mp h
  obtain ⟨hobj, rfl⟩ := Value.member_eq_ok hmember
  refine ⟨hobj, ?_⟩
  generalize cfgPoint.get "param" = cfgParam at hns
  cases cfgParam <;> first | rfl | simp [Value.getMemberNames] at hns

variable (devName s) in
lemma sectioned_iff : (∃ s', initData devName cfgPoint s = .ok s') ↔ Sectioned cfgPoint := by
  constructor
  · rintro ⟨s', h⟩
    obtain ⟨htable, hparam⟩ := objects_of_initData h
    rw [initData_of_objects htable hparam] at h
    exact ⟨htable, hparam, (initSections_ok hparam s).mp ⟨s', h⟩⟩
  · rintro ⟨htable, hparam, hsize⟩
    rw [initData_of_objects htable hparam]
    exact (initSections_ok hparam s).mpr hsize

/-- What `initData` leaves follows the table if the last name is as long as the signals, and no
values are left over. -/
lemma follows_iff (h : initData devName cfgPoint s = .ok s') :
    Follows cfgPoint devName s' ↔
      LastAsLong (cfgPoint.get "param") ∧ Fresh cfgPoint devName s := by
  obtain ⟨htable, hparam⟩ := objects_of_initData h
  rw [initData_of_objects htable hparam] at h
  have hslot := initSections_slot h
  unfold Follows LastAsLong Fresh
  generalize cfgPoint.get "param" = cfgParam at hslot ⊢
  constructor
  · refine fun hfollows => ⟨fun n hn hsig hlast => ?_, fun t sec ht hnone => ?_⟩
    · have hvals := hslot .signal
      rw [lastOf_eq_some.mpr ⟨hn, hsig, hlast⟩, hfollows .signal "signal" rfl] at hvals
      simpa using (congrArg List.length hvals).symm
    · have hvals := hslot t
      have hsec : sec ∉ names cfgParam := fun hmem =>
        hnone sec hmem (sectionType_of_typeName ht)
      rw [lastOf_eq_none.mpr hnone, hfollows t sec ht, get_of_not_mem hsec] at hvals
      exact hvals.symm
  · rintro ⟨hlast, hfresh⟩ t sec ht
    rw [hslot t]
    cases hof : lastOf (names cfgParam) t with
    | none =>
      have hnone := lastOf_eq_none.mp hof
      have hsec : sec ∉ names cfgParam := fun hmem =>
        hnone sec hmem (sectionType_of_typeName ht)
      rw [get_of_not_mem hsec]
      exact hfresh t sec ht hnone
    | some n =>
      obtain ⟨hn, rfl, hmax⟩ := lastOf_eq_some.mp hof
      by_cases hsig : sectionType n = .signal
      · obtain rfl : sec = "signal" := by
          rw [hsig] at ht
          exact (Option.some.inj ht).symm
        rw [hsig] at hmax
        exact congrArg (List.replicate · _) (hlast n hn hsig hmax)
      · obtain rfl : n = sec := Option.some.inj ((typeName_sectionType hsig).symm.trans ht)
        rfl

/-- **The shape of the store**: `initData` leaves each type of a device as many initial values as
the section of its point table has entries exactly if the table can be gone through, the last
name that stands for the signals is as long as their section, and no type without a section had
values. -/
theorem initData_follows_iff (devName : String) (cfgPoint : Value R) (s : Store R) :
    (∃ s', initData devName cfgPoint s = .ok s' ∧ Follows cfgPoint devName s') ↔
      Sectioned cfgPoint ∧ LastAsLong (cfgPoint.get "param") ∧ Fresh cfgPoint devName s := by
  rw [← sectioned_iff devName s]
  constructor
  · rintro ⟨s', h, hfollows⟩
    exact ⟨⟨s', h⟩, (follows_iff h).mp hfollows⟩
  · rintro ⟨⟨s', h⟩, hcond⟩
    exact ⟨s', h, (follows_iff h).mpr hcond⟩

end Shape

/-- A table with two signals and one entry in a section of another name. -/
theorem zone_overwrites_signal :
    ¬ ∀ (devName : String) (ms : List (String × Value ℚ)) (s' : Store ℚ),
      initData devName (.object [("param", .object ms)]) ∅ = .ok s' →
        Follows (.object [("param", .object ms)]) devName s' := by
  intro h
  let ms : List (String × Value ℚ) :=
    [("signal", .array [.null, .null]), ("zone", .array [.null])]
  have hsectioned : Sectioned (.object [("param", .object ms)]) :=
    ⟨rfl, rfl, by decide +kernel⟩
  obtain ⟨s', hs⟩ := (sectioned_iff "dev" ∅).mpr hsectioned
  have hlast := ((follows_iff hs).mp (h "dev" ms s' hs)).1
  exact absurd (hlast "zone" (by decide +kernel) (by decide) (by decide +kernel)) (by decide)

/-! ### Start-up -/

/-- Each device has the shape of its table, or no values at all. -/
def Shapely (table : String → Value R) (s : Store R) : Prop :=
  ∀ name, Follows (table name) name s ∨ ∀ t, (slot s name t).vals = []

lemma initData_shapely {table : String → Value R}
    (hlast : ∀ name, LastAsLong ((table name).get "param")) {devName : String} {s s' : Store R}
    (hs : Shapely table s) (h : initData devName (table devName) s = .ok s') :
    Shapely table s' := by
  intro name
  by_cases hname : name = devName
  · subst hname
    refine .inl ((follows_iff h).mpr ⟨hlast name, fun t sec ht hnone => ?_⟩)
    obtain hfollows | hempty := hs name
    · have hsec : sec ∉ names ((table name).get "param") := fun hmem =>
        hnone sec hmem (sectionType_of_typeName ht)
      rw [hfollows t sec ht, get_of_not_mem hsec]
      rfl
    · exact hempty t
  · obtain ⟨htable, hparam⟩ := objects_of_initData h
    rw [initData_of_objects htable hparam] at h
    have hsame := initSections_other h hname
    exact (hs name).imp (fun hf t sec ht => (hsame t).trans (hf t sec ht))
      fun he t => (hsame t).trans (he t)

/-- **Start-up**: if in every table the last name that stands for the signals is as long as their
section, then in the store `init` leaves each device has the shape of its table, or no values. -/
theorem init_shapely [Double R] {cfg : Config R} {s : Store R} (h : init cfg = .ok s)
    (hlast : ∀ name,
      LastAsLong (((getDeviceCfg cfg name .pointTable).getD .null).get "param")) :
    Shapely (fun name => (getDeviceCfg cfg name .pointTable).getD .null) s := by
  refine init_inv ?_ (fun devName s t hs ht => initData_shapely hlast hs ht) h
  exact fun name => .inr fun t => by simp [slot, PointVec.empty]

end DataEngine.DataStorage
