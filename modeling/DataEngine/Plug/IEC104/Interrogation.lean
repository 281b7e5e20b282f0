import DataEngine.Plug.IEC104.Segments
import DataEngine.Rational

/-!
What a general interrogation tells the peer.

The segments of the signal table are read the way their receiver reads them, as sequences of
elements at consecutive addresses, and come to the table again: every signal once, in order,
with its own address.
-/

namespace DataEngine.TransIEC104

open ConfigParse Lib.Effect

/-! ### Sequences of elements, as they are received -/

/-- The low 7 bits of octet 7 -/
def elemNum (f : Frame) : ℕ := (f.getD 7 0 &&& 0x7f).toNat

/-- The address in octets 12 to 14 -/
def baseAddr (f : Frame) : ℕ :=
  (f.getD 12 0).toNat + 256 * (f.getD 13 0).toNat + 65536 * (f.getD 14 0).toNat

/-- The elements, one octet each. -/
def elems (f : Frame) : List UInt8 := (List.range (elemNum f)).map fun i => f.getD (15 + i) 0

/-- The elements with their addresses. -/
def points (f : Frame) : List (ℕ × UInt8) := (elems f).mapIdx fun i c => (baseAddr f + i, c)

/-- A frame with a sequence of one-octet elements, and nothing else behind its head. -/
structure IsSequence (f : Frame) : Prop where
  sq : 0x80 ≤ f.getD 7 0
  pos : 0 < elemNum f
  le : elemNum f ≤ 127
  length : f.length = elemNum f + 15
  apduLen : (f.getD 1 0).toNat = elemNum f + 13

instance (f : Frame) : Decidable (IsSequence f) :=
  decidable_of_iff (0x80 ≤ f.getD 7 0 ∧ 0 < elemNum f ∧ elemNum f ≤ 127 ∧
      f.length = elemNum f + 15 ∧ (f.getD 1 0).toNat = elemNum f + 13)
    ⟨fun h => ⟨h.1, h.2.1, h.2.2.1, h.2.2.2.1, h.2.2.2.2⟩,
      fun h => ⟨h.sq, h.pos, h.le, h.length, h.apduLen⟩⟩

/-! ### One segment -/

lemma count_octet : ∀ r < 128, ((0x80 ||| .ofNat r : UInt8) &&& 0x7f).toNat = r ∧
    (0x80 : UInt8) ≤ 0x80 ||| .ofNat r := by
  decide

variable {startAddr : ℤ} {k r : ℕ} {f : Frame}

lemma Segment.elemNum_eq {width : ℕ} (h : Segment startAddr k r width f) (hr : r ≤ 127) :
    elemNum f = r := by
  unfold elemNum
  rw [h.num]
  exact (count_octet r (by omega)).1

/-- The three octets of an address below `2^24` are read back as the address. -/
lemma Segment.baseAddr_eq {width : ℕ} (h : Segment startAddr k r width f) (h0 : 0 ≤ startAddr)
    (hlt : startAddr + k * sqMaxNum < 2 ^ 24) :
    baseAddr f = startAddr.toNat + k * sqMaxNum := by
  obtain ⟨a, ha⟩ : ∃ a : ℕ, startAddr + k * sqMaxNum = a :=
    ⟨_, (Int.toNat_of_nonneg (by positivity)).symm⟩
  have haddr : a = startAddr.toNat + k * sqMaxNum := by
    zify
    rw [Int.toNat_of_nonneg h0, ← ha]
  have h12 := h.addr 0 (by omega)
  have h13 := h.addr 1 (by omega)
  have h14 := h.addr 2 (by omega)
  rw [ha] at h12 h13 h14 hlt
  have hlt : a < 2 ^ 24 := by exact_mod_cast hlt
  unfold baseAddr
  rw [h12, h13, h14, octet_toNat, octet_toNat, octet_toNat, ← haddr]
  omega

lemma Segment.isSequence (h : Segment startAddr k r 1 f) (hpos : 0 < r) (hr : r ≤ 127) :
    IsSequence f := by
  have hnum := h.elemNum_eq hr
  refine ⟨?_, by omega, by omega, ?_, ?_⟩
  · rw [h.num]
    exact (count_octet r (by omega)).2
  · rw [h.length, hnum, Nat.mul_one]
  · rw [h.apduLen, octet_toNat, hnum]
    omega

variable {R V : Type} {env : Env R V} {vecValue : List V}

/-- The `k`-th segment of the signal table, with the values of its points. -/
def YxFrame (env : Env R V) (vecValue : List V) (startAddr : ℤ) (k r : ℕ) (f : Frame) : Prop :=
  Segment startAddr k r 1 f ∧
    ∀ i < r, ∃ v, vecValue[i + k * sqMaxNum]? = some v ∧ env.asUInt8 v = .ok (f.getD (15 + i) 0)

lemma YxFrame.elems_eq (h : YxFrame env vecValue startAddr k r f) (hr : r ≤ 127) :
    List.Forall₂ (fun v c => env.asUInt8 v = .ok c) ((vecValue.drop (k * sqMaxNum)).take r)
      (elems f) := by
  obtain ⟨hseg, helem⟩ := h
  have hnum := hseg.elemNum_eq hr
  have hlen : k * sqMaxNum + r ≤ vecValue.length ∨ r = 0 := by
    rcases Nat.eq_zero_or_pos r with h0 | hpos
    · exact .inr h0
    · obtain ⟨v, hv, -⟩ := helem (r - 1) (by omega)
      obtain ⟨hlt, -⟩ := List.getElem?_eq_some_iff.mp hv
      exact .inl (by omega)
  rw [List.forall₂_iff_get]
  refine ⟨?_, fun i h1 h2 => ?_⟩
  · simp only [elems, List.length_take, List.length_drop, List.length_map, List.length_range]
    omega
  · have hi : i < r := by
      rw [List.length_take] at h1
      omega
    obtain ⟨v, hv, hc⟩ := helem i hi
    obtain ⟨hlt, rfl⟩ := List.getElem?_eq_some_iff.mp hv
    simp only [elems, List.get_eq_getElem, List.getElem_take, List.getElem_drop, List.getElem_map,
      List.getElem_range]
    rw [← hc]
    simp only [Nat.add_comm]

/-! ### The whole table -/

/-- The table read back from its segments, from segment `k` on. -/
lemma points_of_segmented {num : ℕ} {frames : List Frame}
    (h : Segmented (YxFrame env vecValue startAddr) k num frames) (hpos : 0 < num)
    (hlen : vecValue.length = k * sqMaxNum + num) (h0 : 0 ≤ startAddr)
    (hle : startAddr + vecValue.length ≤ 2 ^ 24) :
    (∀ f ∈ frames, IsSequence f) ∧ ∃ octets,
      List.Forall₂ (fun v c => env.asUInt8 v = .ok c) (vecValue.drop (k * sqMaxNum)) octets ∧
      frames.flatMap points =
        octets.mapIdx fun j c => (startAddr.toNat + k * sqMaxNum + j, c) := by
  induction h with
  | @last k num f hnum hf =>
    have hnum : num ≤ 127 := hnum
    have haddr : baseAddr f = startAddr.toNat + k * sqMaxNum := by
      refine hf.1.baseAddr_eq h0 ?_
      push_cast [hlen] at hle
      omega
    refine ⟨by simpa using hf.1.isSequence hpos hnum, elems f, ?_, ?_⟩
    · have := hf.elems_eq hnum
      rwa [List.take_of_length_le (by rw [List.length_drop]; omega)] at this
    · simp [points, haddr]
  | @more k num f frames hnum hf rest ih =>
    have hmore : 127 < num := hnum
    have hsucc : (k + 1) * sqMaxNum = k * sqMaxNum + 127 := by
      rw [Nat.succ_mul]
      rfl
    have haddr : baseAddr f = startAddr.toNat + k * sqMaxNum := by
      refine hf.1.baseAddr_eq h0 ?_
      push_cast [hlen] at hle
      omega
    have hrest : num - sqMaxNum = num - 127 := rfl
    obtain ⟨hseq, octets, hval, hpts⟩ := ih (by omega) (by omega)
    have hfirst := hf.elems_eq (le_refl 127)
    refine ⟨?_, elems f ++ octets, ?_, ?_⟩
    · rw [List.forall_mem_cons]
      exact ⟨hf.1.isSequence (by decide) (le_refl 127), hseq⟩
    · rw [← List.take_append_drop 127 (vecValue.drop (k * sqMaxNum)), List.drop_drop, ← hsucc]
      exact List.rel_append hfirst hval
    · have hcount : (elems f).length = 127 := by
        simp [elems, hf.1.elemNum_eq (le_refl 127), sqMaxNum]
      rw [List.flatMap_cons, hpts, List.mapIdx_append, points, haddr, hcount, hsucc]
      have hshift (j : ℕ) : startAddr.toNat + (k * sqMaxNum + 127) + j =
          startAddr.toNat + k * sqMaxNum + (j + 127) := by
        omega
      simp only [hshift]

variable [Double R]

lemma giBuffer_length {type : MonitorType} {elemLen : ℕ} {buf : Frame}
    (h : giBuffer env type elemLen = .ok buf) : buf.length = 15 + 127 * elemLen := by
  obtain ⟨addr, -, h⟩ := bind_eq_ok.mp h
  rw [pokes_length h, List.length_replicate]
  rfl

variable (env) in
lemma exists_giBuffer (type : MonitorType) (elemLen : ℕ) {addr : ℤ}
    (h : cfgInt env "commAddr" = .ok addr) : ∃ buf, giBuffer env type elemLen = .ok buf := by
  have hpokes : ∃ buf, pokes (List.replicate (apHeadLen + sqMaxNum * elemLen) 0)
      [(6, type.code), (8, introgen), (9, 0), (10, octet addr 0), (11, octet addr 1)] =
        .ok buf := by
    refine exists_pokes fun w hw => ?_
    have : apHeadLen + sqMaxNum * elemLen = 15 + 127 * elemLen := rfl
    simp only [List.mem_cons, List.not_mem_nil, or_false] at hw
    rw [List.length_replicate]
    rcases hw with rfl | rfl | rfl | rfl | rfl <;> omega
  obtain ⟨buf, hbuf⟩ := hpokes
  exact ⟨buf, bind_eq_ok.mpr ⟨addr, h, hbuf⟩⟩

/-- An empty table is not sent. -/
lemma exec_sendGIYx_empty {type : MonitorType} {strType : String} {s : Plug} {buf : Frame}
    (hnum : pointNum env "signal" = .ok 0) (hbuf : giBuffer env type 1 = .ok buf) :
    exec (sendGIYx env type strType) s = (.ok ⟨⟩, s) := by
  unfold sendGIYx
  rw [exec_of_bind, hbuf]
  simp only
  rw [exec_of_bind, hnum]
  rfl

/-- A call that returns has made its buffer. -/
lemma sendGIYx_buffer {type : MonitorType} {strType : String} {s t : Plug}
    (h : exec (sendGIYx env type strType) s = (.ok ⟨⟩, t)) :
    ∃ buf, giBuffer env type 1 = .ok buf := by
  unfold sendGIYx at h
  obtain ⟨buf, hbuf, -⟩ := exec_of_bind_eq_ok.mp h
  exact ⟨buf, hbuf⟩

/-- Once the buffer is made, the call is the loop over the segments. -/
lemma exec_sendGIYx {type : MonitorType} {strType : String} {s : Plug} {signalNum : ℕ} {yxStart : ℤ}
    {buf : Frame} (hpos : 0 < signalNum) (hnum : pointNum env "signal" = .ok signalNum)
    (hvec : env.getTransMultiValue s.log env.name .signal 0 signalNum = .ok vecValue)
    (hstart : cfgInt env "yxStart" = .ok yxStart) (hbuf : giBuffer env type 1 = .ok buf) :
    exec (sendGIYx env type strType) s =
      exec (sendSegments env strType (yxSegment env vecValue yxStart) (signalNum / sqMaxNum) 0
        signalNum buf) s := by
  unfold sendGIYx
  rw [exec_of_bind, hbuf]
  simp only
  rw [exec_of_bind, hnum]
  simp only [if_neg hpos.ne']
  rw [exec_get_bind, exec_of_bind, hvec]
  simp only
  rw [exec_of_bind, hstart]

/-- A segment of full length leaves the next one where it ends. -/
lemma next_segment {k num : ℕ} (hmore : sqMaxNum < num) :
    (k + 1) * sqMaxNum + (num - sqMaxNum) = k * sqMaxNum + num := by
  rw [Nat.succ_mul, Nat.add_assoc, Nat.add_sub_cancel' hmore.le]

/-- The address of the last segment of a table is an `int`, and so are those before it. -/
def AddrFits (startAddr : ℤ) (num : ℕ) : Prop :=
  intMin ≤ startAddr ∧ startAddr + ((num - 1) / sqMaxNum * sqMaxNum : ℕ) ≤ intMax

lemma AddrFits.segment {num k rest : ℕ} (h : AddrFits startAddr num) (hrest : 0 < rest)
    (hsum : k * sqMaxNum + rest = num) :
    intMin ≤ startAddr + k * sqMaxNum ∧ startAddr + k * sqMaxNum ≤ intMax := by
  obtain ⟨h0, hle⟩ := h
  have hk : k ≤ (num - 1) / sqMaxNum := (Nat.le_div_iff_mul_le (by decide)).mpr (by omega)
  have hmul : ((k * sqMaxNum : ℕ) : ℤ) ≤ ((num - 1) / sqMaxNum * sqMaxNum : ℕ) := by
    exact_mod_cast Nat.mul_le_mul_right _ hk
  push_cast at hmul hle ⊢
  have : (0 : ℤ) ≤ k * sqMaxNum := by positivity
  omega

/-- All segments are sent if the values convert. -/
lemma exists_sendYxSegments {strType : String} {yxStart : ℤ} {buf : Frame} (s : Plug)
    (hpos : 0 < vecValue.length) (haddr : AddrFits yxStart vecValue.length)
    (hlen : buf.length = 142) {b : Bool} (hb : bPrintFrame env.cfg env.name = .ok b)
    (hconv : ∀ v ∈ vecValue, ∃ c, env.asUInt8 v = .ok c) :
    ∃ t, exec (sendSegments env strType (yxSegment env vecValue yxStart)
      (vecValue.length / sqMaxNum) 0 vecValue.length buf) s = (.ok ⟨⟩, t) := by
  refine exists_sendSegments (fun k num buf =>
    buf.length = 142 ∧ 0 < num ∧ k * sqMaxNum + num = vecValue.length) hb ?_
    ⟨hlen, hpos, by omega⟩
  rintro s k num buf ⟨hfit, hnum, hsum⟩
  have hr : min sqMaxNum num ≤ 127 := Nat.min_le_left _ _
  have hr' : min sqMaxNum num ≤ num := Nat.min_le_right _ _
  obtain ⟨haddr0, haddr⟩ := haddr.segment hnum hsum
  have hval (i : ℕ) (hi : i < min sqMaxNum num) : ∃ v c,
      vecValue[i + k * sqMaxNum]? = some v ∧ env.asUInt8 v = .ok c := by
    have hlt : i + k * sqMaxNum < vecValue.length := by omega
    obtain ⟨c, hc⟩ := hconv _ (List.getElem_mem hlt)
    exact ⟨_, c, List.getElem?_eq_getElem hlt, hc⟩
  obtain ⟨f, hf⟩ := exists_yxSegment s haddr0 haddr hval (by omega : 15 + _ ≤ buf.length)
  refine ⟨f, hf, fun hmore => ⟨?_, by omega, ?_⟩⟩
  · rw [(yxSegment_eq_ok hf).1.length, min_eq_left hmore.le]
    rfl
  · rw [next_segment hmore, hsum]

variable (env) in
/-- **Signal interrogation**: the frames that are sent are sequences of 1 to 127 elements, and
what they tell of is the signal table, the octet of each value at its address. They are sent
whenever the configuration and the values convert. -/
theorem sendGIYx_points (type : MonitorType) (strType : String) (s : Plug) (signalNum : ℕ)
    (vecValue : List V) (yxStart : ℤ) (hnum : pointNum env "signal" = .ok signalNum)
    (hvec : 0 < signalNum →
      env.getTransMultiValue s.log env.name .signal 0 signalNum = .ok vecValue)
    (hlen : vecValue.length = signalNum)
    (hstart : 0 < signalNum → cfgInt env "yxStart" = .ok yxStart) (h0 : 0 ≤ yxStart)
    (hle : yxStart + signalNum ≤ 2 ^ 24) :
    (∀ t, exec (sendGIYx env type strType) s = (.ok ⟨⟩, t) →
      ∃ (frames : List Frame) (octets : List UInt8),
      t.log = s.log ++ frames.map (.sent s.fd) ∧
      vecValue.mapM env.asUInt8 = .ok octets ∧
      frames.flatMap points = octets.mapIdx (fun j c => (yxStart.toNat + j, c)) ∧
      ∀ f ∈ frames, IsSequence f) ∧
    ((∃ addr, cfgInt env "commAddr" = .ok addr) → (∃ b, bPrintFrame env.cfg env.name = .ok b) →
      (∀ v ∈ vecValue, ∃ c, env.asUInt8 v = .ok c) →
      ∃ t, exec (sendGIYx env type strType) s = (.ok ⟨⟩, t)) := by
  rcases Nat.eq_zero_or_pos signalNum with hz | hpos
  · subst hz
    obtain rfl : vecValue = [] := List.length_eq_zero_iff.mp hlen
    constructor
    · intro t h
      obtain ⟨buf, hbuf⟩ := sendGIYx_buffer h
      obtain rfl : s = t := congrArg Prod.snd ((exec_sendGIYx_empty hnum hbuf).symm.trans h)
      exact ⟨[], [], by simp, rfl, rfl, by simp⟩
    · rintro ⟨addr, haddr⟩ - -
      obtain ⟨buf, hbuf⟩ := exists_giBuffer env type 1 haddr
      exact ⟨s, exec_sendGIYx_empty hnum hbuf⟩
  subst hlen
  have hvec := hvec hpos
  have hstart := hstart hpos
  constructor
  · intro t h
    obtain ⟨buf, hbuf⟩ := sendGIYx_buffer h
    rw [exec_sendGIYx hpos hnum hvec hstart hbuf] at h
    have hframe (s : Plug) (k realNum : ℕ) (buf f : Frame)
        (hf : yxSegment env vecValue yxStart s k realNum buf = .ok f) :
        YxFrame env vecValue yxStart k realNum f := yxSegment_eq_ok hf
    obtain ⟨frames, hlog, hcut⟩ := segmented_of_sendSegments hframe (num_le_segments _) h
    obtain ⟨hseq, octets, hval, hpts⟩ := points_of_segmented hcut hpos (by omega) h0 (by omega)
    refine ⟨frames, octets, hlog, mapM_eq_ok.mpr (by simpa using hval), ?_, hseq⟩
    simpa using hpts
  · rintro ⟨addr, haddr⟩ ⟨b, hb⟩ hconv
    obtain ⟨buf, hbuf⟩ := exists_giBuffer env type 1 haddr
    rw [exec_sendGIYx hpos hnum hvec hstart hbuf]
    have haddr : AddrFits yxStart vecValue.length := by
      have := Nat.div_mul_le_self (vecValue.length - 1) sqMaxNum
      unfold AddrFits intMin intMax
      omega
    exact exists_sendYxSegments s hpos haddr (giBuffer_length hbuf) hb hconv

/-- A plug-in with tables of some sizes, whose values are octets counted up from 0. -/
def tableEnv (signalNum measureNum : ℕ) (param : List (String × Json.Value ℚ)) : Env ℚ UInt8 where
  cfg := { ConfigParse.empty with
    mapTransNameCfg := (∅ : Map String (Map CfgType (Json.Value ℚ))).insert "T"
      (((∅ : Map CfgType (Json.Value ℚ)).insert .protocol
        (.object [("param", .object param)])).insert
        .pointTable (.object [("param", .object
          [("signal", .array (List.replicate signalNum .null)),
            ("measure", .array (List.replicate measureNum .null))])])) }
  name := "T"
  getTransMultiValue := fun _ _ _ _ num => .ok ((List.range num.toNat).map .ofNat)
  asUInt8 := fun c => .ok c
  floatOctets := fun c => .ok fun _ => c
  shortOctets := fun c => .ok fun _ => c
  getSysTime := fun _ => ⟨0, 0, 0, 0, 0, 0, 0, 0⟩
  longShift := fun _ _ => 0

/-- Two signals from address 0x4001 on. -/
theorem two_signals_told : ∃ (t : Plug) (frames : List Frame),
    exec (sendGIYx (tableEnv 2 0 [("yxStart", .int 0x4001)]) .mSpNa1 "总招单点遥信") Plug.init =
      (.ok ⟨⟩, t) ∧
    t.log = frames.map (.sent 0) ∧ frames.flatMap points = [(0x4001, 0), (0x4002, 1)] := by
  obtain ⟨hpoints, hreturns⟩ := sendGIYx_points
    (tableEnv 2 0 [("yxStart", .int 0x4001)]) .mSpNa1 "总招单点遥信" Plug.init 2 [0, 1] 0x4001 rfl
    (fun _ => rfl) rfl (fun _ => rfl) (by decide) (by decide)
  obtain ⟨t, ht⟩ := hreturns ⟨0, rfl⟩ ⟨false, rfl⟩ fun v _ => ⟨v, rfl⟩
  obtain ⟨frames, octets, hlog, hoctets, hpts, -⟩ := hpoints t ht
  obtain rfl : [0, 1] = octets := Except.ok.inj hoctets
  exact ⟨t, frames, ht, hlog, hpts⟩

end DataEngine.TransIEC104
