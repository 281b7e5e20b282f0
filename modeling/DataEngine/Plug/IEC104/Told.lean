import DataEngine.Plug.IEC104.Values
import DataEngine.Data.Calls

/-!
What an interrogation tells of the data centre.

The values are read as several transmit points at once, which looks past the table as soon as it
has three rows: a table of signals with three is never sent. What is sent of a smaller one are the
latest values of the points its rows name. The measurements are sent with the values of signals,
and not each of them with its own.
-/

namespace DataEngine.TransIEC104.Values

open Json ConfigParse Lib.Effect
open DataStorage (ValueWrap Store transValue visited Point Zeroed)

variable {R : Type} [Double R]

/-! ### The table and its rows -/

/-- A row that is found is one of the table. -/
lemma lt_of_transValue {data : DataStorage.Env R} {name : String} {store : Store R} {id : ℕ}
    {v : ValueWrap R} (h : transValue data name .signal store id = .ok (some v)) {num : ℕ}
    (hnum : (((getTransCfg data.cfg name .pointTable).getD .null).get "param" |>.get
      "signal").size = num) :
    id < num ∧ ∃ devName pointId,
      transInfoToDevInfo data.cfg name "signal" id = .ok (some (devName, pointId)) := by
  unfold transValue at h
  rw [DataStorage.exec_getTransValue data rfl] at h
  rcases hinfo : transInfoToDevInfo data.cfg name "signal" id with e | _ | ⟨devName, pointId⟩
  · rw [hinfo] at h
    cases h
  · rw [hinfo] at h
    cases h
  refine ⟨?_, devName, pointId, rfl⟩
  rcases htable : getTransCfg data.cfg name .pointTable with _ | table
  · rw [transInfoToDevInfo_none htable] at hinfo
    cases hinfo
  rw [transInfoToDevInfo_some htable] at hinfo
  rw [htable, Option.getD_some] at hnum
  split_ifs at hinfo with hreads hempty
  · cases hinfo
  obtain ⟨-, -, harr, -⟩ := hreads
  unfold Value.dot at hempty
  rcases hsec : (table.get "param").get "signal" with _ | _ | _ | _ | _ | _ | rows | _
  all_goals rw [hsec] at harr hempty hnum
  case array =>
    subst hnum
    by_contra hle
    apply hempty
    have hnull : (Value.array rows).nth id = .null := by
      have hget : rows[id]? = none := List.getElem?_eq_none (Nat.le_of_not_lt hle)
      simp [Value.nth, hget]
    rw [hnull]
    rfl
  case null => exact absurd rfl hempty
  all_goals cases harr

omit [Double R] in
/-- As many values are delivered as the segments read. -/
lemma le_of_segmented {V : Type} {env : Env R V} {vecValue : List V} {startAddr : ℤ} {k num : ℕ}
    {frames : List Frame} (h : Segmented (YxFrame env vecValue startAddr) k num frames) :
    num = 0 ∨ k * sqMaxNum + num ≤ vecValue.length := by
  have hread {k r : ℕ} {f : Frame} (hf : YxFrame env vecValue startAddr k r f) (hr : 0 < r) :
      k * sqMaxNum + r ≤ vecValue.length := by
    obtain ⟨v, hv, -⟩ := hf.2 (r - 1) (by omega)
    have hlt := (List.getElem?_eq_some_iff.mp hv).1
    omega
  induction h with
  | @last k num f hnum hf =>
    rcases Nat.eq_zero_or_pos num with rfl | hpos
    · exact .inl rfl
    · exact .inr (hread hf hpos)
  | @more k num f frames hnum hf rest ih =>
    rcases ih with hz | hle
    · omega
    · rw [next_segment hnum] at hle
      exact .inr hle

/-! ### What is told -/

/-- A run of accesses from the store the start-up leaves, and the plug-in looking at the store
it comes to. -/
structure Watches (data : DataStorage.Env R) (s₀ : Store R) (moves : List (DataStorage.Move R))
    (store : List Ev → Store R) (log : List Ev) : Prop where
  init : DataStorage.init data.cfg = .ok s₀
  now : store log = (DataStorage.run data s₀ moves).store

/-- What the latest of the accesses has left at a point. -/
def latest (data : DataStorage.Env R) (s₀ : Store R) (moves : List (DataStorage.Move R))
    (p : Point) : Option (ValueWrap R) :=
  Lib.Memory.after (DataStorage.initial s₀)
    (DataStorage.writes (DataStorage.run data s₀ moves).history) p

/-- The octet tells of the row: of the latest value of the point it names, or of the formula if
it names a composite one. -/
def Tells (env : Env R (ValueWrap R)) (data : DataStorage.Env R) (s₀ : Store R)
    (moves : List (DataStorage.Move R)) (id : ℕ) (c : UInt8) : Prop :=
  ∃ devName pointId v,
    transInfoToDevInfo data.cfg env.name "signal" id = .ok (some (devName, pointId)) ∧
    env.asUInt8 v = .ok c ∧
    if devName = "Composite" then
      (exec (DataStorage.getCompositeValue data .signal pointId .unknown)
        (DataStorage.run data s₀ moves).store).1 = .ok (some v)
    else latest data s₀ moves (devName, .signal, pointId) = some v

variable {env : Env R (ValueWrap R)} {data : DataStorage.Env R} {s₀ : Store R}
  {moves : List (DataStorage.Move R)} {store : List Ev → Store R} {s t : Plug}

/-- What a transmit point stands for, read off the accesses made so far. -/
lemma tells_of_transValue (hwatches : Watches data s₀ moves store s.log) {id : ℕ}
    {v : ValueWrap R}
    (hfound : transValue data env.name .signal (store s.log) id = .ok (some v)) {c : UInt8}
    (hc : env.asUInt8 v = .ok c) : Tells env data s₀ moves id c := by
  unfold transValue at hfound
  rw [DataStorage.exec_getTransValue data rfl] at hfound
  rcases hinfo : transInfoToDevInfo data.cfg env.name "signal" id with e | _ | ⟨devName, pointId⟩
  · rw [hinfo] at hfound
    cases hfound
  · rw [hinfo] at hfound
    cases hfound
  rw [hinfo, hwatches.now] at hfound
  refine ⟨devName, pointId, v, hinfo, hc, ?_⟩
  unfold DataStorage.getDotValue at hfound
  split_ifs with hcomposite
  · simpa only [if_pos hcomposite] using hfound
  · simp only [if_neg hcomposite] at hfound
    obtain ⟨_, -, hvalue⟩ := DataStorage.getValue_spec (DataStorage.run data s₀ moves).store
      devName .signal pointId
    rw [hvalue] at hfound
    have hrefines : DataStorage.Refines data s₀ (DataStorage.run data s₀ moves) :=
      DataStorage.run_refines (DataStorage.init_zeroed hwatches.init) moves
    have hcells := hrefines.cells
    rw [latest, ← hcells]
    exact Except.ok.inj hfound

/-- **What an interrogation tells**: if the signals of a table are sent at all, it has at most two
rows; one frame is sent for it, with the address the configuration gives, and each of its octets
is the latest value of the point the row names, whatever has been read and written before. -/
theorem told_signals (hwatches : Watches data s₀ moves store s.log) {type : MonitorType}
    {strType : String}
    (h : exec (TransIEC104.sendGIYx (onStore env data store) type strType) s = (.ok ⟨⟩, t)) :
    ∃ num, pointNum (onStore env data store) "signal" = .ok num ∧ num ≤ 2 ∧
      (num = 0 ∧ t = s ∨ ∃ yxStart f, cfgInt (onStore env data store) "yxStart" = .ok yxStart ∧
        t.log = s.log ++ [.sent s.fd f] ∧ Segment yxStart 0 num 1 f ∧
        ∀ id < num, Tells env data s₀ moves id (f.getD (15 + id) 0)) := by
  unfold TransIEC104.sendGIYx at h
  obtain ⟨buf, hbuf, h⟩ := exec_of_bind_eq_ok.mp h
  obtain ⟨num, hnum, h⟩ := exec_of_bind_eq_ok.mp h
  rcases Nat.eq_zero_or_pos num with rfl | hpos
  · rw [if_pos rfl] at h
    exact ⟨0, hnum, by omega, .inl ⟨rfl, (Prod.mk.inj h).2.symm⟩⟩
  rw [if_neg hpos.ne', exec_get_bind] at h
  obtain ⟨vecValue, hvec, h⟩ := exec_of_bind_eq_ok.mp h
  obtain ⟨yxStart, hstart, h⟩ := exec_of_bind_eq_ok.mp h
  have hdelivers := getTransMultiValue_onStore.mp hvec
  have hframe (s : Plug) (k r : ℕ) (buf f : Frame)
      (hf : yxSegment (onStore env data store) vecValue yxStart s k r buf = .ok f) :
      YxFrame (onStore env data store) vecValue yxStart k r f := yxSegment_eq_ok hf
  obtain ⟨frames, hlog, hcut⟩ := segmented_of_sendSegments hframe (num_le_segments _) h
  have hlen : vecValue.length = num := by
    rcases le_of_segmented hcut with hz | hle
    · omega
    · exact Nat.le_antisymm hdelivers.le (by omega)
  have hsize : (((getTransCfg data.cfg env.name .pointTable).getD .null).get "param" |>.get
      "signal").size = num := by
    obtain ⟨param, hparam, hrest⟩ := bind_eq_ok.mp hnum
    obtain ⟨sec, hsec, hrest⟩ := bind_eq_ok.mp hrest
    obtain ⟨-, rfl⟩ := Value.member_eq_ok hparam
    obtain ⟨-, rfl⟩ := Value.member_eq_ok hsec
    exact Except.ok.inj hrest
  have hfound (k : ℕ) (hk : k < num) : ∃ v, vecValue[k]? = some v ∧
      transValue data env.name .signal (store s.log) ((k * (k + 1) / 2 : ℕ) : ℤ) =
        .ok (some v) := by
    have hlt : k < vecValue.length := by omega
    have hid : visited 0 k = ((k * (k + 1) / 2 : ℕ) : ℤ) := by
      rw [visited]
      push_cast
      omega
    exact ⟨_, List.getElem?_eq_getElem hlt, hid ▸ hdelivers.found k hlt⟩
  -- the last pass looks up a row the table does not have, once there are three
  have htwo : num ≤ 2 := by
    by_contra hmore
    obtain ⟨v, -, hlast⟩ := hfound (num - 1) (by omega)
    obtain ⟨hrow, -⟩ := lt_of_transValue hlast hsize
    have htri : num * 2 ≤ (num - 1) * (num - 1 + 1) := by
      rw [Nat.sub_add_cancel hpos, Nat.mul_comm (num - 1)]
      exact Nat.mul_le_mul_left num (by omega)
    omega
  refine ⟨num, hnum, htwo, .inr ⟨yxStart, ?_⟩⟩
  cases hcut with
  | @last _ _ f hle hf =>
    refine ⟨f, hstart, hlog, hf.1, fun id hid => ?_⟩
    obtain ⟨v, hv, hvalue⟩ := hfound id hid
    obtain ⟨w, hw, hc⟩ := hf.2 id hid
    obtain rfl := Option.some.inj (hv.symm.trans hw)
    have hsame : id * (id + 1) / 2 = id := by
      have : id < 2 := by omega
      interval_cases id <;> rfl
    rw [hsame] at hvalue
    exact tells_of_transValue hwatches hvalue hc
  | more hmore => exact absurd hmore (by unfold sqMaxNum; omega)

/-- A transmit table `T` that passes the two points of `D` on, the second first. -/
def twoRows : DataStorage.Env ℚ where
  lib := DataStorage.ownType
  unset _ := 0
  cfg :=
    let dot (pointId : ℤ) : Value ℚ :=
      .object [("devName", .string "D"), ("pointId", .int pointId)]
    let table : Value ℚ := .object [("param", .object [("signal", .array [dot 1, dot 0])])]
    let protocol : Value ℚ := .object [("param", .object [("yxStart", .int 100)])]
    { (DataStorage.oneDevice [.null, .null]).cfg with
      mapTransNameCfg := (∅ : Map _ _).insert "T"
        (((∅ : Map _ _).insert .pointTable table).insert .protocol protocol) }

/-- Numbers are sent as their lowest octet. -/
def numberEnv : Env ℚ (ValueWrap ℚ) where
  __ := wrapEnv
  asUInt8 := fun
    | .int32 x => .ok (octet x.toInt 0)
    | _ => .error .runtimeError

/-- The second point is written. -/
def writeSecond : List (DataStorage.Move ℚ) :=
  [.start 0 ⟨"D", .signal, .index 1, some (.int32 7)⟩]

/-- A plug-in that looks at the store after this. -/
def secondWritten (s₀ : Store ℚ) : Env ℚ (ValueWrap ℚ) :=
  onStore numberEnv twoRows fun _ => (DataStorage.run twoRows s₀ writeSecond).store

/-- The configuration does not change with the store. -/
lemma cfgInt_secondWritten (s₀ : Store ℚ) (key : String) :
    cfgInt (secondWritten s₀) key = cfgInt (secondWritten ∅) key := rfl

lemma pointNum_secondWritten (s₀ : Store ℚ) (sec : String) :
    pointNum (secondWritten s₀) sec = pointNum (secondWritten ∅) sec := rfl

/-- The value of the second point is told of at the first address. -/
theorem two_rows_told : ∃ s₀ t f, DataStorage.init twoRows.cfg = .ok s₀ ∧
    exec (TransIEC104.sendGIYx (secondWritten s₀) .mSpNa1 "总招单点遥信") Plug.init =
      (.ok ⟨⟩, t) ∧
    t.log = [.sent 0 f] ∧ Tells numberEnv twoRows s₀ writeSecond 0 (f.getD 15 0) := by
  obtain ⟨s₀, hinit, hvec⟩ : ∃ s₀, DataStorage.init twoRows.cfg = .ok s₀ ∧
      (secondWritten s₀).getTransMultiValue [] "T" .signal 0 2 = .ok [.int32 7, .int32 0] :=
    ⟨_, rfl, rfl⟩
  have hcomm : cfgInt (secondWritten s₀) "commAddr" = .ok 0 :=
    (cfgInt_secondWritten s₀ _).trans rfl
  have hnum : pointNum (secondWritten s₀) "signal" = .ok 2 :=
    (pointNum_secondWritten s₀ _).trans rfl
  have hstart : cfgInt (secondWritten s₀) "yxStart" = .ok 100 :=
    (cfgInt_secondWritten s₀ _).trans rfl
  have hprint : bPrintFrame (secondWritten s₀).cfg (secondWritten s₀).name = .ok false := rfl
  obtain ⟨buf, hbuf⟩ := exists_giBuffer (secondWritten s₀) .mSpNa1 1 hcomm
  have hconv : ∀ v ∈ [ValueWrap.int32 7, .int32 0], ∃ c, (secondWritten s₀).asUInt8 v = .ok c := by
    simp [secondWritten, onStore, numberEnv]
  obtain ⟨t, ht⟩ : ∃ t, exec (sendSegments (secondWritten s₀) "总招单点遥信"
      (yxSegment (secondWritten s₀) [.int32 7, .int32 0] 100) (2 / sqMaxNum) 0 2 buf) Plug.init =
        (.ok ⟨⟩, t) := by
    refine exists_sendYxSegments Plug.init ?_ ?_ (giBuffer_length hbuf) hprint hconv
    · simp
    · simp [AddrFits, intMin, intMax, sqMaxNum]
  have hsent := (exec_sendGIYx (by omega) hnum hvec hstart hbuf).trans ht
  have hwatches : Watches twoRows s₀ writeSecond
      (fun _ => (DataStorage.run twoRows s₀ writeSecond).store) Plug.init.log := ⟨hinit, rfl⟩
  obtain ⟨num, hnum', -, ⟨rfl, -⟩ | ⟨yxStart, f, -, hlog, -, htells⟩⟩ :=
    told_signals hwatches hsent
  · cases hnum.symm.trans hnum'
  · obtain rfl := Except.ok.inj (hnum.symm.trans hnum')
    exact ⟨s₀, t, f, hinit, hsent, hlog, htells 0 (by omega)⟩

/-! ### The measurements -/

section Measurements

variable (env : Env R (ValueWrap R)) (data : DataStorage.Env R) (store : List Ev → Store R)
  (type : MonitorType)

/-- The octets of the measure points of a table, each of them looked up by itself. -/
structure MeasureOctets (s : Plug) (octets : List (List UInt8)) : Prop where
  num : pointNum (onStore env data store) "measure" = .ok octets.length
  value : ∀ j (hj : j < octets.length), ∃ v,
    transValue data env.name .measure (store s.log) j = .ok (some v) ∧
      measured env type v = .ok octets[j]

/-- The frames that are sent tell of the measure points of the table. -/
def TellsMeasures (strType : String) (s : Plug) (ycStart : ℤ) : Prop :=
  ∃ octets, MeasureOctets env data store type s octets ∧
    TellsOctets (onStore env data store) type strType s ycStart octets

variable {env data store type} in
lemma MeasureOctets.unique {octets octets' : List (List UInt8)}
    (h : MeasureOctets env data store type s octets)
    (h' : MeasureOctets env data store type s octets') : octets = octets' := by
  refine List.ext_getElem (Except.ok.inj (h.num.symm.trans h'.num)) fun j hj hj' => ?_
  obtain ⟨v, hv, he⟩ := h.value j hj
  obtain ⟨v', hv', he'⟩ := h'.value j hj'
  obtain rfl : v = v' := by simpa using hv.symm.trans hv'
  exact Except.ok.inj (he.symm.trans he')

/-- **Measurement interrogation**: the frames that are sent tell of the measure points exactly if
their length fits its octet, the signals can be asked for and, for every measurement, what the
loop over these leaves in its place is its own value. -/
theorem sendGIYc_points_iff (htype : type.isMeasure) (strType : String) (s : Plug)
    (octets : List (List UInt8)) (ycStart commAddr : ℤ) (b : Bool)
    (hvalues : MeasureOctets env data store type s octets)
    (hstart : cfgInt (onStore env data store) "ycStart" = .ok ycStart) (h0 : 0 ≤ ycStart)
    (hle : ycStart + octets.length ≤ 2 ^ 24)
    (hcomm : cfgInt (onStore env data store) "commAddr" = .ok commAddr)
    (hb : bPrintFrame data.cfg env.name = .ok b) :
    TellsMeasures env data store type strType s ycStart ↔
      octets = [] ∨ octets.length * type.width + 13 ≤ 255 ∧
        ∃ vecValue, Delivers data env.name (store s.log) octets.length vecValue ∧
          ∀ j (hj : j < octets.length),
            LoopLeaves env type vecValue octets.length j octets[j] := by
  have htells := tellsOctets_iff (onStore env data store) htype strType s hvalues.num hstart h0 hle
    hcomm hb
  simp only [getTransMultiValue_onStore] at htells
  constructor
  · rintro ⟨octets', hvalues', h⟩
    obtain rfl := hvalues.unique hvalues'
    exact htells.mp h
  · intro h
    exact ⟨octets, hvalues, htells.mpr h⟩

end Measurements

/-- A transmit table `T` of four signals and three measurements of `D`. -/
def sevenRows : DataStorage.Env ℚ where
  lib := DataStorage.ownType
  unset _ := 0
  cfg :=
    let dot (pointId : ℤ) : Value ℚ :=
      .object [("devName", .string "D"), ("pointId", .int pointId)]
    let table : Value ℚ := .object [("param", .object
      [("signal", .array [dot 0, dot 1, dot 2, dot 3]), ("measure", .array [dot 0, dot 1, dot 2])])]
    let protocol : Value ℚ := .object [("param", .object [("ycStart", .int 0x4001)])]
    { empty with
      mapTransNameCfg := (∅ : Map _ _).insert "T"
        (((∅ : Map _ _).insert .pointTable table).insert .protocol protocol) }

/-- Four signals and three measurements of `D`. -/
def sevenPoints (a b c d : Int32) (x y z : ℚ) : Store ℚ :=
  DataStorage.setSlot
    (DataStorage.setSlot ∅ "D" .signal ⟨[.int32 a, .int32 b, .int32 c, .int32 d], by simp [intMax]⟩)
    "D" .measure ⟨[.double x, .double y, .double z], by simp [intMax]⟩

/-- Numbers are sent as their two lowest octets. -/
def shortEnv : Env ℚ (ValueWrap ℚ) where
  __ := wrapEnv
  shortOctets := fun
    | .int32 x => .ok fun b => octet x.toInt b
    | .double x => .ok fun b => octet (Double.toInt64 x) b
    | _ => .error .runtimeError

/-- The octets of the three measurements, as short integers. -/
lemma measureOctets_seven {a b c d : Int32} {x y z : ℚ} :
    MeasureOctets shortEnv sevenRows (fun _ => sevenPoints a b c d x y z) .mMeNd1 Plug.init
      [List.ofFn fun i : Fin 2 => octet (Double.toInt64 x) i,
        List.ofFn fun i : Fin 2 => octet (Double.toInt64 y) i,
        List.ofFn fun i : Fin 2 => octet (Double.toInt64 z) i] := by
  have hnum : pointNum (onStore shortEnv sevenRows fun _ => ∅) "measure" = .ok 3 := by
    decide +kernel
  refine ⟨hnum, fun j hj => ?_⟩
  obtain rfl | rfl | rfl : j = 0 ∨ j = 1 ∨ j = 2 := by
    have : j < 3 := hj
    omega
  · exact ⟨.double x, rfl, rfl⟩
  · exact ⟨.double y, rfl, rfl⟩
  · exact ⟨.double z, rfl, rfl⟩

/-- Of four signals the first, the second and the fourth are delivered for three numbers. -/
lemma delivers_seven {a b c d : Int32} {x y z : ℚ} :
    Delivers sevenRows "T" (sevenPoints a b c d x y z) 3 [.int32 a, .int32 b, .int32 d] := by
  have hlt (k : ℕ) (hk : k < 3) : k = 0 ∨ k = 1 ∨ k = 2 := by omega
  refine ⟨le_rfl, fun k hk _ => ?_, fun k hk => ?_, fun h => absurd h (lt_irrefl 3)⟩
  · obtain rfl | rfl | rfl := hlt k hk <;> exact ⟨by decide, by decide⟩
  · obtain rfl | rfl | rfl := hlt k hk <;> rfl

/-- Three measurements are told, at the addresses from 0x4001 on: two of them happen to have the
values of the first and the fourth signal, and the third is 0. -/
theorem three_measures_told :
    TellsMeasures shortEnv sevenRows (fun _ => sevenPoints 7 8 9 5 7 5 0) .mMeNd1 "" Plug.init
      0x4001 := by
  have hvalues : MeasureOctets shortEnv sevenRows (fun _ => sevenPoints 7 8 9 5 7 5 0) .mMeNd1
      Plug.init [[7, 0], [5, 0], [0, 0]] := measureOctets_seven
  have hcfg : cfgInt (onStore shortEnv sevenRows fun _ => ∅) "ycStart" = .ok 0x4001 ∧
      cfgInt (onStore shortEnv sevenRows fun _ => ∅) "commAddr" = .ok 0 ∧
      bPrintFrame sevenRows.cfg shortEnv.name = .ok false := by
    decide +kernel
  refine (sendGIYc_points_iff shortEnv sevenRows _ .mMeNd1 rfl "" Plug.init _ 0x4001 0 false hvalues
    hcfg.1 (by decide) (by decide) hcfg.2.1 hcfg.2.2).mpr (.inr ⟨by decide, _, delivers_seven, ?_⟩)
  intro j hj
  obtain rfl | rfl | rfl : j = 0 ∨ j = 1 ∨ j = 2 := by
    have : j < 3 := hj
    omega
  · exact ⟨.int32 7, rfl, rfl⟩
  · exact ⟨.int32 5, rfl, rfl⟩
  · rfl

/-- Of three measurements the second is told with the value of the fourth signal. -/
theorem second_measure_lost :
    (∃ octets, MeasureOctets shortEnv sevenRows (fun _ => sevenPoints 0 1 2 3 0 1 2) .mMeNd1
        Plug.init octets) ∧
      ¬ TellsMeasures shortEnv sevenRows (fun _ => sevenPoints 0 1 2 3 0 1 2) .mMeNd1 ""
        Plug.init 0x4001 := by
  have hvalues : MeasureOctets shortEnv sevenRows (fun _ => sevenPoints 0 1 2 3 0 1 2) .mMeNd1
      Plug.init [[0, 0], [1, 0], [2, 0]] := measureOctets_seven
  refine ⟨⟨_, hvalues⟩, ?_⟩
  rintro ⟨octets, hvalues', t, frames, h, hlog, -, hpts⟩
  obtain rfl := hvalues.unique hvalues'
  have hsent : (exec (TransIEC104.sendGIYc (onStore shortEnv sevenRows fun _ =>
      sevenPoints 0 1 2 3 0 1 2) .mMeNd1 "") Plug.init).2.log =
      [[0x68, 19, 0, 0, 0, 0, 21, 0x83, 20, 0, 0, 0, 1, 0x40, 0, 0, 0, 3, 0, 0, 0]].map
        (.sent 0) := by
    decide +kernel
  rw [h, hlog] at hsent
  obtain rfl := (sent_injective 0).list_map hsent
  exact absurd hpts (by decide)

end DataEngine.TransIEC104.Values
