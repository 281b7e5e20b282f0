import DataEngine.Plug.IEC104.Interrogation
import DataEngine.Plug.IEC104.Reframing

/-!
What a general interrogation tells of the measurements.

The loop over a segment advances its index by the length of an element and uses it as the number
of a point and as the place of an octet. So an element is written for every `width`-th point
only, one behind the other, and the rest of the segment is what the buffer held.
-/

namespace DataEngine.TransIEC104

open ConfigParse Lib.Effect

/-! ### Sequences of elements of any width -/

/-- The elements, `width` octets each. -/
def elemsOf (width : ℕ) (f : Frame) : List Frame :=
  (List.range (elemNum f)).map fun i => (f.drop (15 + i * width)).take width

/-- The elements with their addresses. -/
def pointsOf (width : ℕ) (f : Frame) : List (ℕ × Frame) :=
  (elemsOf width f).mapIdx fun i e => (baseAddr f + i, e)

/-- A frame with a sequence of elements of `width` octets, and nothing else behind its head. -/
structure IsSequenceOf (width : ℕ) (f : Frame) : Prop where
  sq : 0x80 ≤ f.getD 7 0
  pos : 0 < elemNum f
  le : elemNum f ≤ 127
  length : f.length = elemNum f * width + 15
  apduLen : (f.getD 1 0).toNat = elemNum f * width + 13

lemma Segment.isSequenceOf_iff {startAddr : ℤ} {k r width : ℕ} {f : Frame}
    (h : Segment startAddr k r width f) (hpos : 0 < r) (hr : r ≤ 127) :
    IsSequenceOf width f ↔ r * width + 13 ≤ 255 := by
  have hnum := h.elemNum_eq hr
  have hlen : (f.getD 1 0).toNat = (r * width + 13) % 256 := by
    rw [h.apduLen, octet_toNat]
    simp
  constructor
  · intro hseq
    have := hseq.apduLen
    rw [hlen, hnum] at this
    omega
  · intro hle
    refine ⟨?_, by omega, by omega, ?_, ?_⟩
    · rw [h.num]
      exact (count_octet r (by omega)).2
    · rw [h.length, hnum]
    · rw [hlen, hnum]
      omega

/-! ### Elements of measurements -/

def MonitorType.isMeasure : MonitorType → Bool
  | .mMeNc1 | .mMeNd1 | .mMeNa1 | .mMeNb1 => true
  | _ => false

/-- The octets of the value in an element. -/
def MonitorType.byteNum : MonitorType → ℕ
  | .mMeNc1 => 4
  | _ => 2

/-- The quality octets of an element. -/
def MonitorType.qualityNum : MonitorType → ℕ
  | .mMeNd1 => 0
  | _ => 1

lemma MonitorType.width_eq (type : MonitorType) : type.width = type.byteNum + type.qualityNum := by
  cases type <;> rfl

lemma MonitorType.width_bounds (type : MonitorType) : 2 ≤ type.width ∧ type.width ≤ 5 := by
  cases type <;> decide

variable {R V : Type} {env : Env R V} {type : MonitorType}

variable (env type) in
/-- The octets of a value, as a measurement of the type. -/
def measured (v : V) : Except Fault (List UInt8) :=
  if type = .mMeNc1 then List.ofFn <$> env.floatOctets v else List.ofFn <$> env.shortOctets v

lemma measured_length {v : V} {e : List UInt8} (h : measured env type v = .ok e) :
    e.length = type.byteNum := by
  unfold measured at h
  by_cases hc : type = .mMeNc1
  · rw [if_pos hc] at h
    rcases hv : env.floatOctets v with x | g
    · simp [hv, Functor.map, Except.map] at h
    · obtain rfl : List.ofFn g = e := by simpa [hv, Functor.map, Except.map] using h
      subst hc
      exact List.length_ofFn
  · rw [if_neg hc] at h
    rcases hv : env.shortOctets v with x | g
    · simp [hv, Functor.map, Except.map] at h
    · obtain rfl : List.ofFn g = e := by simpa [hv, Functor.map, Except.map] using h
      rw [List.length_ofFn]
      cases type <;> first | rfl | exact absurd rfl hc

variable (env type) in
/-- A value is written at the index of the loop, and a zero past the place of its quality. -/
def ycPut (buf : Frame) (i : ℕ) (v : V) : Except Fault Frame := do
  let value ← measured env type v
  let buf ← pokes buf ((value.take type.byteNum).mapIdx fun b c => (apHeadLen + i + b, c))
  if type.qualityNum ≠ 0 then poke buf (apHeadLen + i + type.width) 0 else .ok buf

variable (env type) in
/-- One pass of the loop over a segment. -/
def ycElem (vecValue : List V) (off : ℕ) (buf : Frame) (i : ℕ) : Except Fault Frame := do
  ycPut env type buf i (← valueAt vecValue (i + off))

lemma ycSegment_eq {vecValue : List V} {ycStartAddr : ℤ} {s : Plug} {k realNum : ℕ} {buf : Frame} :
    ycSegment env type vecValue ycStartAddr type.byteNum type.qualityNum s k realNum buf = (do
      let buf ← giHead ycStartAddr k realNum buf
      let buf ← (List.range ((realNum + type.width - 1) / type.width)).foldlM
        (fun buf j => ycElem env type vecValue (k * sqMaxNum) buf (j * type.width)) buf
      let buf ← setAPCI s (realNum * type.width + 13) buf
      .ok (resize (realNum * type.width + 15) buf)) := by
  -- the conversion is chosen once in front of its two continuations
  by_cases hc : type = .mMeNc1
  · simp only [ycSegment, ycElem, ycPut, measured, MonitorType.width_eq, if_pos hc]
  · simp only [ycSegment, ycElem, ycPut, measured, MonitorType.width_eq, if_neg hc]

lemma valueAt_eq_ok {vecValue : List V} {i : ℕ} {v : V} :
    valueAt vecValue i = .ok v ↔ vecValue[i]? = some v := by
  unfold valueAt
  rcases h : vecValue[i]? with _ | w <;> simp

/-- Octets in a row, as they are written. -/
lemma pokes_row {base : ℕ} {e : List UInt8} {buf buf' : Frame}
    (h : pokes buf (e.mapIdx fun b c => (base + b, c)) = .ok buf') (p : ℕ) :
    buf'.getD p 0 =
      if base ≤ p ∧ p < base + e.length then e.getD (p - base) 0 else buf.getD p 0 := by
  induction e generalizing base buf with
  | nil =>
    obtain rfl : buf = buf' := by simpa [pokes] using h
    rw [if_neg (by simp)]
  | cons c e ih =>
    have hshift : (e.mapIdx fun b c => (base + (b + 1), c)) =
        e.mapIdx fun b c => (base + 1 + b, c) := by
      congr 1
      funext b c
      rw [Nat.add_right_comm, Nat.add_assoc]
    rw [List.mapIdx_cons, hshift] at h
    obtain ⟨b, hb, h⟩ := bind_eq_ok.mp h
    rw [ih h, poke_getD hb]
    simp only [List.length_cons, Nat.add_zero]
    by_cases hp : p = base
    · subst hp
      simp
    · by_cases hin : base + 1 ≤ p ∧ p < base + 1 + e.length
      · have hsucc : p - base = p - (base + 1) + 1 := by omega
        rw [if_pos hin, if_pos (by omega), hsucc, List.getD_cons_succ]
      · rw [if_neg hin, if_neg hp, if_neg (by omega)]

/-- The value is written, and past the place of its quality a zero. -/
lemma ycElem_eq_ok {vecValue : List V} {off i : ℕ} {buf buf' : Frame}
    (h : ycElem env type vecValue off buf i = .ok buf') :
    buf'.length = buf.length ∧ ∃ v e, vecValue[i + off]? = some v ∧
      measured env type v = .ok e ∧ ∀ p, buf'.getD p 0 =
        if type.qualityNum ≠ 0 ∧ p = 15 + i + type.width then 0
        else if 15 + i ≤ p ∧ p < 15 + i + type.byteNum then e.getD (p - (15 + i)) 0
        else buf.getD p 0 := by
  obtain ⟨v, hv, h⟩ := bind_eq_ok.mp h
  obtain ⟨e, he, h⟩ := bind_eq_ok.mp h
  obtain ⟨b, hb, h⟩ := bind_eq_ok.mp h
  have hlen := measured_length he
  rw [List.take_of_length_le hlen.le] at hb
  have hrow := pokes_row hb
  rw [hlen] at hrow
  split_ifs at h with hq
  · refine ⟨(poke_length h).trans (pokes_length hb), v, e, valueAt_eq_ok.mp hv, he, fun p => ?_⟩
    rw [poke_getD h, hrow]
    simp [hq, apHeadLen]
  · obtain rfl : b = buf' := by simpa using h
    refine ⟨pokes_length hb, v, e, valueAt_eq_ok.mp hv, he, fun p => ?_⟩
    rw [hrow]
    simp [hq, apHeadLen]

/-- The passes of the loop are those whose index is in the segment. -/
lemma lt_passes_iff {r w j : ℕ} (hw : 0 < w) : j < (r + w - 1) / w ↔ j * w < r := by
  rw [← Nat.succ_le_iff, Nat.le_div_iff_mul_le hw, Nat.succ_mul]
  omega

/-- The elements the loop leaves in a buffer of zeros. -/
lemma ycElems_eq_ok {vecValue : List V} {off n : ℕ} {buf buf' : Frame}
    (hzero : ∀ p ≥ 15, buf.getD p 0 = 0)
    (h : (List.range n).foldlM
      (fun buf j => ycElem env type vecValue off buf (j * type.width)) buf = .ok buf') :
    buf'.length = buf.length ∧
      (∀ j < n, ∃ v e, vecValue[j * type.width + off]? = some v ∧ measured env type v = .ok e ∧
        ∀ b < type.width, buf'.getD (15 + j * type.width + b) 0 = e.getD b 0) ∧
      ∀ p ≥ 15 + n * type.width, buf'.getD p 0 = 0 := by
  have hbytes := type.width_eq
  induction n generalizing buf' with
  | zero =>
    obtain rfl : buf = buf' := by simpa [pure, Except.pure] using h
    exact ⟨rfl, by simp, fun p hp => hzero p (by omega)⟩
  | succ n ih =>
    rw [foldlM_range_succ] at h
    obtain ⟨b, hb, h⟩ := bind_eq_ok.mp h
    obtain ⟨hlen, helem, hrest⟩ := ih hb
    obtain ⟨hlen', v, e, hv, he, hget⟩ := ycElem_eq_ok h
    have hsucc : (n + 1) * type.width = n * type.width + type.width := Nat.succ_mul _ _
    refine ⟨hlen'.trans hlen, fun j hj => ?_, fun p hp => ?_⟩
    · rcases Nat.lt_succ_iff_lt_or_eq.mp hj with hlt | rfl
      · -- an element that was there is in front of the one that is written
        obtain ⟨v', e', hv', he', hget'⟩ := helem j hlt
        have hle : (j + 1) * type.width ≤ n * type.width := Nat.mul_le_mul_right _ hlt
        rw [Nat.succ_mul] at hle
        refine ⟨v', e', hv', he', fun i hi => ?_⟩
        rw [hget, if_neg (by omega), if_neg (by omega), hget' i hi]
      · refine ⟨v, e, hv, he, fun i hi => ?_⟩
        rw [hget, if_neg (by omega)]
        by_cases hin : i < type.byteNum
        · rw [if_pos (by omega), Nat.add_sub_cancel_left]
        · have hout : e.getD i 0 = 0 := by
            rw [List.getD_eq_default]
            rw [measured_length he]
            omega
          rw [if_neg (by omega), hout, hrest _ (by omega)]
    · rw [hget]
      split_ifs with h1 h2
      · rfl
      · omega
      · exact hrest p (by omega)

/-- A value that converts is written if the buffer has the place. -/
lemma exists_ycPut {buf : Frame} {i : ℕ} {v : V} {e : List UInt8}
    (he : measured env type v = .ok e) (hbuf : 15 + i + type.width < buf.length) :
    ∃ buf', ycPut env type buf i v = .ok buf' := by
  have hbytes := type.width_eq
  obtain ⟨b, hb⟩ : ∃ b, pokes buf ((e.take type.byteNum).mapIdx
      fun j c => (apHeadLen + i + j, c)) = .ok b := by
    refine exists_pokes fun w hw => ?_
    obtain ⟨j, hj, rfl⟩ := List.mem_mapIdx.mp hw
    have hj := hj.trans_le (List.length_take_le _ _)
    show 15 + i + j < buf.length
    omega
  obtain ⟨b', hb'⟩ : ∃ b', (if type.qualityNum ≠ 0 then
      poke b (apHeadLen + i + type.width) 0 else .ok b) = .ok b' := by
    split_ifs
    · refine ⟨_, poke_of_lt ?_ 0⟩
      rw [pokes_length hb]
      exact hbuf
    · exact ⟨b, rfl⟩
  exact ⟨b', bind_eq_ok.mpr ⟨e, he, bind_eq_ok.mpr ⟨b, hb, hb'⟩⟩⟩

/-- The loop returns if the values it asks for are there and convert. -/
lemma exists_ycElems {vecValue : List V} {off n : ℕ} {buf : Frame}
    (hval : ∀ j < n, ∃ v e, vecValue[j * type.width + off]? = some v ∧ measured env type v = .ok e)
    (hbuf : 15 + n * type.width < buf.length) :
    ∃ buf', (List.range n).foldlM
        (fun buf j => ycElem env type vecValue off buf (j * type.width)) buf = .ok buf' ∧
      buf'.length = buf.length := by
  have hbytes := type.width_eq
  induction n with
  | zero => exact ⟨buf, rfl, rfl⟩
  | succ n ih =>
    have hsucc : (n + 1) * type.width = n * type.width + type.width := Nat.succ_mul _ _
    obtain ⟨b, hb, hlen⟩ := ih (fun j hj => hval j (by omega)) (by omega)
    obtain ⟨v, e, hv, he⟩ := hval n (by omega)
    obtain ⟨b'', hput⟩ := exists_ycPut he (by omega : 15 + n * type.width + _ < b.length)
    have hpass : ycElem env type vecValue off b (n * type.width) = .ok b'' :=
      bind_eq_ok.mpr ⟨v, valueAt_eq_ok.mpr hv, hput⟩
    refine ⟨b'', ?_, (ycElem_eq_ok hpass).1.trans hlen⟩
    rw [foldlM_range_succ]
    exact bind_eq_ok.mpr ⟨b, hb, hpass⟩

/-- A segment of measurements is made if the values it asks for convert and its buffer holds
it. -/
lemma exists_ycSegment {vecValue : List V} {startAddr : ℤ} (s : Plug) {k r : ℕ} {buf : Frame}
    (h0 : intMin ≤ startAddr + k * sqMaxNum) (haddr : startAddr + k * sqMaxNum ≤ intMax)
    (hval : ∀ j, j * type.width < r → ∃ v e,
      vecValue[j * type.width + k * sqMaxNum]? = some v ∧ measured env type v = .ok e)
    (hbuf : 15 + r + type.width ≤ buf.length) :
    ∃ f, ycSegment env type vecValue startAddr type.byteNum type.qualityNum s k r buf = .ok f := by
  have hw := type.width_bounds
  have hroom : apHeadLen ≤ buf.length := by
    unfold apHeadLen
    omega
  obtain ⟨head, hhead⟩ := exists_giHead hroom h0 haddr r
  have hpasses : (r + type.width - 1) / type.width * type.width ≤ r + type.width - 1 :=
    Nat.div_mul_le_self _ _
  obtain ⟨full, hfull, hlen⟩ := exists_ycElems
    (fun j hj => hval j ((lt_passes_iff (by omega)).mp hj))
    (show 15 + (r + type.width - 1) / type.width * type.width < head.length by
      rw [(giHead_eq_ok hhead).1]
      omega)
  have hlen' : 6 ≤ full.length := by
    rw [hlen, (giHead_eq_ok hhead).1]
    omega
  obtain ⟨apci, hapci⟩ := exists_setAPCI s (r * type.width + 13) hlen'
  rw [ycSegment_eq]
  exact ⟨_, bind_eq_ok.mpr ⟨head, hhead, bind_eq_ok.mpr ⟨full, hfull,
    bind_eq_ok.mpr ⟨apci, hapci, rfl⟩⟩⟩⟩

/-! ### What a segment says -/

/-- Octets in a row, read back. -/
lemma take_drop_eq {f e : List UInt8} {off w : ℕ} (hlen : off + w ≤ f.length) (he : e.length ≤ w)
    (h : ∀ b < w, f.getD (off + b) 0 = e.getD b 0) :
    (f.drop off).take w = e ++ List.replicate (w - e.length) 0 := by
  refine List.ext_getElem ?_ fun b h1 h2 => ?_
  · simp only [List.length_take, List.length_drop, List.length_append, List.length_replicate]
    omega
  · have hb : b < w := by
      rw [List.length_take] at h1
      omega
    have hget := h b hb
    rw [List.getD_eq_getElem _ _ (by omega)] at hget
    rw [List.getElem_take, List.getElem_drop, hget, List.getElem_append]
    split_ifs with hin
    · exact List.getD_eq_getElem _ _ hin
    · rw [List.getElem_replicate, List.getD_eq_default _ _ (by omega)]

/-- A segment made from a buffer of zeros: elements of every `width`-th value, then zeros. -/
lemma ycSegment_elems {vecValue : List V} {startAddr : ℤ} {s : Plug} {k r : ℕ} {buf f : Frame}
    (hzero : ∀ p ≥ 15, buf.getD p 0 = 0)
    (h : ycSegment env type vecValue startAddr type.byteNum type.qualityNum s k r buf = .ok f) :
    ∀ j < r,
      (j * type.width < r → ∃ v e, vecValue[j * type.width + k * sqMaxNum]? = some v ∧
        measured env type v = .ok e ∧
        (f.drop (15 + j * type.width)).take type.width = e ++ List.replicate type.qualityNum 0) ∧
      (¬ j * type.width < r →
        (f.drop (15 + j * type.width)).take type.width = List.replicate type.width 0) := by
  have hw := type.width_bounds
  have hbytes := type.width_eq
  rw [ycSegment_eq] at h
  obtain ⟨head, hhead, h⟩ := bind_eq_ok.mp h
  obtain ⟨full, hfull, h⟩ := bind_eq_ok.mp h
  obtain ⟨apci, hapci, h⟩ := bind_eq_ok.mp h
  obtain rfl : resize (r * type.width + 15) apci = f := by simpa using h
  have hheadZero (p : ℕ) (hp : p ≥ 15) : head.getD p 0 = 0 := by
    obtain ⟨addr, -, hpokes⟩ := bind_eq_ok.mp hhead
    rw [pokes_getD_of_ne hpokes, hzero p hp]
    intro w hw
    simp only [List.mem_cons, List.not_mem_nil, or_false] at hw
    rcases hw with rfl | rfl | rfl | rfl <;> omega
  obtain ⟨-, helem, hrest⟩ := ycElems_eq_ok hheadZero hfull
  intro j hj
  have hplace : (j + 1) * type.width ≤ r * type.width := Nat.mul_le_mul_right _ hj
  rw [Nat.succ_mul] at hplace
  have hget (b : ℕ) (hb : b < type.width) :
      (resize (r * type.width + 15) apci).getD (15 + j * type.width + b) 0 =
        full.getD (15 + j * type.width + b) 0 := by
    rw [getD_resize (by omega), setAPCI_rest hapci (by omega)]
  have hroom : 15 + j * type.width + type.width ≤
      (resize (r * type.width + 15) apci).length := by
    rw [resize_length]
    omega
  constructor
  · intro hin
    obtain ⟨v, e, hv, he, hrow⟩ := helem j ((lt_passes_iff (by omega)).mpr hin)
    have hlen := measured_length he
    refine ⟨v, e, hv, he, ?_⟩
    rw [take_drop_eq hroom (by omega) fun b hb => (hget b hb).trans (hrow b hb)]
    congr 2
    omega
  · intro hout
    have hpasses : (r + type.width - 1) / type.width ≤ j :=
      Nat.le_of_not_lt fun hlt => hout ((lt_passes_iff (by omega)).mp hlt)
    have hpasses := Nat.mul_le_mul_right type.width hpasses
    have hnil : ∀ b < type.width, (resize (r * type.width + 15) apci).getD
        (15 + j * type.width + b) 0 = ([] : Frame).getD b 0 := fun b hb => by
      rw [hget b hb, hrest _ (by omega), List.getD_nil]
    rw [take_drop_eq hroom (Nat.zero_le _) hnil]
    rfl

variable (env type) in
/-- The loop over a table of `num` measurements leaves `e` for measurement `j`: the value it
finds at `j * width`, as long as that is in the table, and zeros after it. -/
def LoopLeaves (vecValue : List V) (num j : ℕ) (e : List UInt8) : Prop :=
  if j * type.width < num then
    ∃ v, vecValue[j * type.width]? = some v ∧ measured env type v = .ok e
  else e = List.replicate type.byteNum 0

/-- The points a segment tells are those of some values exactly if these are what the loop
leaves. -/
lemma pointsOf_eq_iff {vecValue : List V} {startAddr : ℤ} {s : Plug} {buf f : Frame}
    {octets : List (List UInt8)} (hzero : ∀ p ≥ 15, buf.getD p 0 = 0)
    (h : ycSegment env type vecValue startAddr type.byteNum type.qualityNum s 0 octets.length buf =
      .ok f)
    (hnum : octets.length ≤ 127) (h0 : 0 ≤ startAddr)
    (hlt : startAddr < 2 ^ 24) :
    pointsOf type.width f = octets.mapIdx (fun j e =>
        (startAddr.toNat + j, e ++ List.replicate type.qualityNum 0)) ↔
      ∀ j (hj : j < octets.length), LoopLeaves env type vecValue octets.length j octets[j] := by
  have hbytes := type.width_eq
  have hseg : Segment startAddr 0 octets.length type.width f := hbytes ▸ ycSegment_eq_ok h
  have helems := ycSegment_elems hzero h
  have haddr : baseAddr f = startAddr.toNat := by
    simpa using hseg.baseAddr_eq h0 (by simpa using hlt)
  have hcount := hseg.elemNum_eq hnum
  have hpoint (j : ℕ) (hj : j < octets.length) :
      (f.drop (15 + j * type.width)).take type.width =
        octets[j] ++ List.replicate type.qualityNum 0 ↔
      LoopLeaves env type vecValue octets.length j octets[j] := by
    unfold LoopLeaves
    split_ifs with hin
    · obtain ⟨v, e, hv, he, hrow⟩ := (helems j hj).1 hin
      rw [hrow, List.append_left_inj]
      have hv : vecValue[j * type.width]? = some v := by simpa using hv
      simp only [hv, Option.some.injEq, exists_eq_left', he, Except.ok.injEq]
    · rw [(helems j hj).2 hin, hbytes, List.replicate_add, List.append_left_inj]
      exact eq_comm
  have hlen : (pointsOf type.width f).length = octets.length := by
    simp [pointsOf, elemsOf, hcount]
  constructor
  · intro heq j hj
    refine (hpoint j hj).mp ?_
    have hget := congrArg (fun l => l[j]?) heq
    simpa [pointsOf, elemsOf, hcount, hj, haddr] using hget
  · intro hall
    refine List.ext_getElem (by simp [hlen]) fun j h1 h2 => ?_
    have hj : j < octets.length := by omega
    simp only [pointsOf, elemsOf, List.getElem_mapIdx, List.getElem_map, List.getElem_range, haddr]
    rw [(hpoint j hj).mpr (hall j hj)]

/-! ### The whole table -/

variable [Double R]

lemma giBuffer_zero {elemLen : ℕ} {buf : Frame} (h : giBuffer env type elemLen = .ok buf) {p : ℕ}
    (hp : p ≥ 15) : buf.getD p 0 = 0 := by
  obtain ⟨addr, -, h⟩ := bind_eq_ok.mp h
  rw [pokes_getD_of_ne h]
  · simp only [List.getD_eq_getElem?_getD, List.getElem?_replicate]
    split_ifs <;> rfl
  · intro w hw
    simp only [List.mem_cons, List.not_mem_nil, or_false] at hw
    rcases hw with rfl | rfl | rfl | rfl | rfl <;> omega

/-- An empty table is not sent. -/
lemma exec_sendGIYc_empty {strType : String} {s : Plug} {buf : Frame}
    (hnum : pointNum env "measure" = .ok 0) (hbuf : giBuffer env type 5 = .ok buf) :
    exec (sendGIYc env type strType) s = (.ok ⟨⟩, s) := by
  unfold sendGIYc
  rw [exec_of_bind, hbuf]
  simp only
  rw [exec_of_bind, hnum]
  rfl

/-- A call that returns has read the values it sends. -/
lemma sendGIYc_reads {strType : String} {s t : Plug} {num : ℕ} {buf : Frame} (hpos : 0 < num)
    (hnum : pointNum env "measure" = .ok num) (hbuf : giBuffer env type 5 = .ok buf)
    (h : exec (sendGIYc env type strType) s = (.ok ⟨⟩, t)) :
    ∃ vecValue, env.getTransMultiValue s.log env.name .signal 0 num = .ok vecValue := by
  rcases hvec : env.getTransMultiValue s.log env.name .signal 0 num with e | vecValue
  · unfold sendGIYc at h
    rw [exec_of_bind, hbuf] at h
    simp only at h
    rw [exec_of_bind, hnum] at h
    simp only [if_neg hpos.ne'] at h
    rw [exec_get_bind, exec_of_bind, hvec] at h
    simp at h
  · exact ⟨vecValue, rfl⟩

/-- Once the buffer is made, the call is the loop over the segments. -/
lemma exec_sendGIYc (htype : type.isMeasure) {strType : String} {s : Plug} {num : ℕ}
    {vecValue : List V} {ycStart : ℤ} {buf : Frame} (hpos : 0 < num)
    (hnum : pointNum env "measure" = .ok num)
    (hvec : env.getTransMultiValue s.log env.name .signal 0 num = .ok vecValue)
    (hstart : cfgInt env "ycStart" = .ok ycStart) (hbuf : giBuffer env type 5 = .ok buf) :
    exec (sendGIYc env type strType) s =
      exec (sendSegments env strType
        (ycSegment env type vecValue ycStart type.byteNum type.qualityNum) (num / sqMaxNum) 0 num
        buf) s := by
  unfold sendGIYc
  rw [exec_of_bind, hbuf]
  simp only
  rw [exec_of_bind, hnum]
  simp only [if_neg hpos.ne']
  rw [exec_get_bind, exec_of_bind, hvec]
  simp only
  rw [exec_of_bind, hstart]
  cases type
  case mMeNc1 | mMeNd1 | mMeNa1 | mMeNb1 => rfl
  all_goals exact absurd htype (by decide)

/-- A table that fits one segment is sent as that segment. -/
lemma exec_sendSegments_one {strType : String}
    {segment : Plug → ℕ → ℕ → Frame → Except Fault Frame} {n num : ℕ} {buf f : Frame} {s : Plug}
    (hnum : num ≤ sqMaxNum) (hf : segment s 0 num buf = .ok f) {b : Bool}
    (hb : bPrintFrame env.cfg env.name = .ok b) :
    exec (sendSegments env strType segment n 0 num buf) s = (.ok ⟨⟩, s.sends f) := by
  rw [sendSegments_of_segment (by rwa [min_eq_right hnum]) hb]
  cases n with
  | zero => rfl
  | succ n =>
    simp only [sendRest, if_neg (Nat.not_lt.mpr hnum)]
    rfl

variable (env type) in
/-- The call returns, the frames it sends are sequences of elements of the type, and what they
tell of are these measurements, each at its address and of good quality. -/
def TellsOctets (strType : String) (s : Plug) (ycStart : ℤ) (octets : List (List UInt8)) : Prop :=
  ∃ (t : Plug) (frames : List Frame),
    exec (sendGIYc env type strType) s = (.ok ⟨⟩, t) ∧
    t.log = s.log ++ frames.map (.sent s.fd) ∧
    (∀ f ∈ frames, IsSequenceOf type.width f) ∧
    frames.flatMap (pointsOf type.width) = octets.mapIdx fun j e =>
      (ycStart.toNat + j, e ++ List.replicate type.qualityNum 0)

lemma sent_injective (fd : ℤ) : Function.Injective (Ev.sent fd) := fun f g h => by
  simpa using h

/-- A table that is told fits one segment, whose length octet does not overflow. -/
lemma num_le_of_sequences {strType : String} {s t : Plug} {num : ℕ} {vecValue : List V}
    {ycStart : ℤ} {buf : Frame} {frames : List Frame} (hpos : 0 < num)
    (h : exec (sendSegments env strType
      (ycSegment env type vecValue ycStart type.byteNum type.qualityNum) (num / sqMaxNum) 0 num
      buf) s = (.ok ⟨⟩, t))
    (hlog : t.log = s.log ++ frames.map (.sent s.fd))
    (hseq : ∀ f ∈ frames, IsSequenceOf type.width f) : num * type.width + 13 ≤ 255 := by
  have hseg (s : Plug) (k r : ℕ) (buf f : Frame)
      (hf : ycSegment env type vecValue ycStart type.byteNum type.qualityNum s k r buf = .ok f) :
      Segment ycStart k r type.width f := type.width_eq ▸ ycSegment_eq_ok hf
  obtain ⟨frames', hlog', hcut⟩ := segmented_of_sendSegments hseg (num_le_segments _) h
  obtain rfl : frames' = frames :=
    (sent_injective s.fd).list_map (List.append_cancel_left (hlog'.symm.trans hlog))
  obtain ⟨g, hg, hfirst⟩ := hcut.head
  have hle := (hfirst.isSequenceOf_iff (by unfold sqMaxNum; omega)
    (Nat.min_le_left _ _)).mp (hseq g hg)
  have hw := type.width_bounds.1
  rcases Nat.le_total num sqMaxNum with hfit | hmore
  · rwa [min_eq_right hfit] at hle
  · rw [min_eq_left hmore] at hle
    have : 127 * 2 ≤ sqMaxNum * type.width := Nat.mul_le_mul_left 127 hw
    omega

/-- What fits the length octet fits one segment. -/
lemma num_le_sqMaxNum {num : ℕ} (hfit : num * type.width + 13 ≤ 255) : num ≤ sqMaxNum := by
  have hw := Nat.mul_le_mul_left num type.width_bounds.1
  show num ≤ 127
  omega

/-- The segment of a table can be made if what the loop reads converts. -/
lemma exists_segment_of_leaves {octets : List (List UInt8)} {vecValue : List V} {ycStart : ℤ}
    {buf : Frame} (s : Plug) (hbuf : giBuffer env type 5 = .ok buf) (h0 : 0 ≤ ycStart)
    (hlt : ycStart < 2 ^ 24) (hone : octets.length ≤ sqMaxNum)
    (hall : ∀ j (hj : j < octets.length), LoopLeaves env type vecValue octets.length j octets[j]) :
    ∃ f, ycSegment env type vecValue ycStart type.byteNum type.qualityNum s 0 octets.length buf =
      .ok f := by
  have hw := type.width_bounds
  have hval (j : ℕ) (hin : j * type.width < octets.length) : ∃ v e,
      vecValue[j * type.width + 0 * sqMaxNum]? = some v ∧ measured env type v = .ok e := by
    have hj : j < octets.length := by
      have := Nat.mul_le_mul_left j hw.1
      omega
    have hleft := hall j hj
    rw [LoopLeaves, if_pos hin] at hleft
    obtain ⟨v, hv, he⟩ := hleft
    exact ⟨v, _, by simpa using hv, he⟩
  have hroom : 15 + octets.length + type.width ≤ buf.length := by
    rw [giBuffer_length hbuf]
    have : octets.length ≤ 127 := hone
    omega
  have haddr : ycStart + (0 : ℕ) * sqMaxNum = ycStart := by simp
  refine exists_ycSegment s ?_ ?_ hval hroom
  · rw [haddr]
    unfold intMin
    omega
  · rw [haddr]
    unfold intMax
    omega

variable (env) in
/-- The frames that are sent tell of these measurements exactly if their length fits its octet
and the loop leaves each of them in its place. -/
lemma tellsOctets_iff (htype : type.isMeasure) (strType : String) (s : Plug)
    {octets : List (List UInt8)} {ycStart commAddr : ℤ} {b : Bool}
    (hnum : pointNum env "measure" = .ok octets.length)
    (hstart : cfgInt env "ycStart" = .ok ycStart) (h0 : 0 ≤ ycStart)
    (hle : ycStart + octets.length ≤ 2 ^ 24) (hcomm : cfgInt env "commAddr" = .ok commAddr)
    (hb : bPrintFrame env.cfg env.name = .ok b) :
    TellsOctets env type strType s ycStart octets ↔
      octets = [] ∨ octets.length * type.width + 13 ≤ 255 ∧
        ∃ vecValue, env.getTransMultiValue s.log env.name .signal 0 octets.length = .ok vecValue ∧
          ∀ j (hj : j < octets.length),
            LoopLeaves env type vecValue octets.length j octets[j] := by
  obtain ⟨buf, hbuf⟩ := exists_giBuffer env type 5 hcomm
  rcases Nat.eq_zero_or_pos octets.length with hz | hpos
  · obtain rfl : octets = [] := List.length_eq_zero_iff.mp hz
    exact ⟨fun _ => .inl rfl, fun _ => ⟨s, [], exec_sendGIYc_empty hnum hbuf, by simp, by simp,
      rfl⟩⟩
  have hlt : ycStart < 2 ^ 24 := by omega
  have hzero (p : ℕ) (hp : p ≥ 15) : buf.getD p 0 = 0 := giBuffer_zero hbuf hp
  constructor
  · rintro ⟨t, frames, h, hlog, hseq, hpts⟩
    obtain ⟨vecValue, hvec⟩ := sendGIYc_reads hpos hnum hbuf h
    rw [exec_sendGIYc htype hpos hnum hvec hstart hbuf] at h
    have hfit := num_le_of_sequences hpos h hlog hseq
    have hone := num_le_sqMaxNum hfit
    refine .inr ⟨hfit, vecValue, hvec, ?_⟩
    obtain ⟨f, hf, -⟩ := sendSegments_eq_ok h
    rw [min_eq_right hone] at hf
    rw [exec_sendSegments_one hone hf hb] at h
    obtain rfl : s.sends f = t := (Prod.mk.inj h).2
    have hsent : s.log ++ [f].map (.sent s.fd) = s.log ++ frames.map (.sent s.fd) := hlog
    obtain rfl : [f] = frames := (sent_injective s.fd).list_map (List.append_cancel_left hsent)
    rw [List.flatMap_singleton] at hpts
    exact (pointsOf_eq_iff hzero hf hone h0 hlt).mp hpts
  · rintro (hnil | ⟨hfit, vecValue, hvec, hall⟩)
    · exact absurd (List.length_eq_zero_iff.mpr hnil) hpos.ne'
    have hone := num_le_sqMaxNum hfit
    obtain ⟨f, hf⟩ := exists_segment_of_leaves s hbuf h0 hlt hone hall
    have hseg : Segment ycStart 0 octets.length type.width f := type.width_eq ▸ ycSegment_eq_ok hf
    refine ⟨s.sends f, [f], ?_, rfl, ?_, ?_⟩
    · rw [exec_sendGIYc htype hpos hnum hvec hstart hbuf]
      exact exec_sendSegments_one hone hf hb
    · intro g hg
      obtain rfl := List.mem_singleton.mp hg
      exact (hseg.isSequenceOf_iff hpos hone).mpr hfit
    · rw [List.flatMap_singleton]
      exact (pointsOf_eq_iff hzero hf hone h0 hlt).mpr hall

end DataEngine.TransIEC104
