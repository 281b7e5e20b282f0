import DataEngine.Plug.IEC104.Replies

/-!
The segments a table is sent in.

A segment rewrites the buffer of its table: its count and its address, its elements, the APCI.
What a finished segment holds is read off these writes, and which of them can fail is said
apart.
-/

namespace DataEngine.TransIEC104

open ConfigParse Lib.Effect

/-! ### Buffers -/

lemma poke_length {buf buf' : Frame} {i : ℕ} {c : UInt8} (h : poke buf i c = .ok buf') :
    buf'.length = buf.length := by
  unfold poke at h
  split_ifs at h
  · obtain rfl : buf.set i c = buf' := by simpa using h
    exact List.length_set
  · obtain rfl : buf = buf' := by simpa using h
    rfl

lemma poke_of_lt {buf : Frame} {i : ℕ} (h : i < buf.length) (c : UInt8) :
    poke buf i c = .ok (buf.set i c) := if_pos h

lemma pokes_length {ws : List (ℕ × UInt8)} {buf buf' : Frame} (h : pokes buf ws = .ok buf') :
    buf'.length = buf.length := by
  induction ws generalizing buf with
  | nil =>
    obtain rfl : buf = buf' := by simpa [pokes] using h
    rfl
  | cons w ws ih =>
    obtain ⟨b, hb, h⟩ := bind_eq_ok.mp h
    rw [ih h, poke_length hb]

/-- Writes inside the buffer succeed. -/
lemma exists_pokes {ws : List (ℕ × UInt8)} {buf : Frame} (h : ∀ w ∈ ws, w.1 < buf.length) :
    ∃ buf', pokes buf ws = .ok buf' := by
  induction ws generalizing buf with
  | nil => exact ⟨buf, rfl⟩
  | cons w ws ih =>
    have hw := poke_of_lt (h w (by simp)) w.2
    have hrest : ∀ x ∈ ws, x.1 < (buf.set w.1 w.2).length := by
      intro x hx
      rw [List.length_set]
      exact h x (by simp [hx])
    obtain ⟨b, hb⟩ := ih hrest
    exact ⟨b, bind_eq_ok.mpr ⟨_, hw, hb⟩⟩

/-- A place that is not written to keeps its octet. -/
lemma pokes_getD_of_ne {ws : List (ℕ × UInt8)} {buf buf' : Frame} (h : pokes buf ws = .ok buf')
    {j : ℕ} (hj : ∀ w ∈ ws, w.1 ≠ j) : buf'.getD j 0 = buf.getD j 0 := by
  induction ws generalizing buf with
  | nil =>
    obtain rfl : buf = buf' := by simpa [pokes] using h
    rfl
  | cons w ws ih =>
    obtain ⟨b, hb, h⟩ := bind_eq_ok.mp h
    rw [ih h fun x hx => hj x (by simp [hx]), poke_getD hb, if_neg (hj w (by simp)).symm]

lemma resize_length (n : ℕ) (buf : Frame) : (resize n buf).length = n := by
  simp only [resize, List.length_append, List.length_take, List.length_replicate]
  omega

/-! ### The APCI and the head of a segment -/

lemma setAPCI_length {s : Plug} {len : ℤ} {buf buf' : Frame} (h : setAPCI s len buf = .ok buf') :
    buf'.length = buf.length := pokes_length h

lemma setAPCI_start {s : Plug} {len : ℤ} {buf buf' : Frame} (h : setAPCI s len buf = .ok buf') :
    buf'.getD 0 0 = 0x68 ∧ buf'.getD 1 0 = octet len 0 := by
  have hg := pokes_getD h
  constructor <;> rw [hg] <;> rfl

lemma setAPCI_rest {s : Plug} {len : ℤ} {buf buf' : Frame} (h : setAPCI s len buf = .ok buf')
    {j : ℕ} (hj : 6 ≤ j) : buf'.getD j 0 = buf.getD j 0 := by
  refine pokes_getD_of_ne h fun w hw => ?_
  simp only [sendField, recvField, List.cons_append, List.nil_append, List.mem_cons,
    List.not_mem_nil, or_false] at hw
  rcases hw with rfl | rfl | rfl | rfl | rfl | rfl <;> omega

lemma exists_setAPCI (s : Plug) (len : ℤ) {buf : Frame} (h : 6 ≤ buf.length) :
    ∃ buf', setAPCI s len buf = .ok buf' := by
  refine exists_pokes fun w hw => ?_
  simp only [sendField, recvField, List.cons_append, List.nil_append, List.mem_cons,
    List.not_mem_nil, or_false] at hw
  rcases hw with rfl | rfl | rfl | rfl | rfl | rfl <;> omega

lemma giHead_eq_ok {startAddr : ℤ} {k realNum : ℕ} {buf buf' : Frame}
    (h : giHead startAddr k realNum buf = .ok buf') :
    buf'.length = buf.length ∧ buf'.getD 7 0 = 0x80 ||| .ofNat realNum ∧
      ∀ j < 3, buf'.getD (12 + j) 0 = octet (startAddr + k * sqMaxNum) j := by
  obtain ⟨addr, haddr, h⟩ := bind_eq_ok.mp h
  obtain ⟨-, -, rfl⟩ := intAdd_eq_ok.mp haddr
  have hg := pokes_getD h
  refine ⟨pokes_length h, by rw [hg]; rfl, fun j hj => ?_⟩
  have hcases : j = 0 ∨ j = 1 ∨ j = 2 := by omega
  rcases hcases with rfl | rfl | rfl <;> rw [hg] <;> rfl

lemma exists_giHead {startAddr : ℤ} {k : ℕ} {buf : Frame} (hbuf : apHeadLen ≤ buf.length)
    (h0 : intMin ≤ startAddr + k * sqMaxNum) (h : startAddr + k * sqMaxNum ≤ intMax)
    (realNum : ℕ) : ∃ buf', giHead startAddr k realNum buf = .ok buf' := by
  have hadd : intAdd startAddr (k * sqMaxNum) = .ok (startAddr + k * sqMaxNum) :=
    intAdd_eq_ok.mpr ⟨h0, h, rfl⟩
  have hpokes : ∃ buf', pokes buf [(7, 0x80 ||| .ofNat realNum),
      (12, octet (startAddr + k * sqMaxNum) 0), (13, octet (startAddr + k * sqMaxNum) 1),
      (14, octet (startAddr + k * sqMaxNum) 2)] = .ok buf' := by
    refine exists_pokes fun w hw => ?_
    have hlen : 15 ≤ buf.length := hbuf
    simp only [List.mem_cons, List.not_mem_nil, or_false] at hw
    rcases hw with rfl | rfl | rfl | rfl <;> omega
  obtain ⟨b, hb⟩ := hpokes
  exact ⟨b, bind_eq_ok.mpr ⟨_, hadd, hb⟩⟩

/-- The `k`-th segment of a table, with `realNum` elements of `width` octets. -/
structure Segment (startAddr : ℤ) (k realNum width : ℕ) (f : Frame) : Prop where
  length : f.length = realNum * width + 15
  start : f.getD 0 0 = 0x68
  apduLen : f.getD 1 0 = octet (realNum * width + 13 : ℕ) 0
  num : f.getD 7 0 = 0x80 ||| .ofNat realNum
  addr : ∀ j < 3, f.getD (12 + j) 0 = octet (startAddr + k * sqMaxNum) j

/-- The elements leave the head alone, and the APCI and the cut come after them. -/
lemma segment_of_parts {s : Plug} {startAddr : ℤ} {k realNum width : ℕ} {buf head full apci : Frame}
    (hhead : giHead startAddr k realNum buf = .ok head)
    (hfull : ∀ j < 15, full.getD j 0 = head.getD j 0)
    (hapci : setAPCI s (realNum * width + 13 : ℕ) full = .ok apci) :
    Segment startAddr k realNum width (resize (realNum * width + 15) apci) := by
  obtain ⟨-, hnum, haddr⟩ := giHead_eq_ok hhead
  obtain ⟨h0, h1⟩ := setAPCI_start hapci
  have hget {j : ℕ} (hj : j < 15) : (resize (realNum * width + 15) apci).getD j 0 = apci.getD j 0 :=
    getD_resize (by omega) apci
  refine ⟨resize_length _ _, ?_, ?_, ?_, fun j hj => ?_⟩
  · rw [hget (by omega), h0]
  · rw [hget (by omega), h1]
  · rw [hget (by omega), setAPCI_rest hapci (by omega), hfull 7 (by omega), hnum]
  · rw [hget (by omega), setAPCI_rest hapci (by omega), hfull _ (by omega), haddr j hj]

variable {R V : Type} [Double R] {env : Env R V}

/-! ### Signals -/

omit [Double R] in
/-- The octets of `n` values, one after the other behind the head. -/
lemma yxElems_eq_ok {vecValue : List V} {off n : ℕ} {buf buf' : Frame}
    (h : (List.range n).foldlM (fun buf i => do
      poke buf (apHeadLen + i) (← env.asUInt8 (← valueAt vecValue (i + off)))) buf = .ok buf') :
    buf'.length = buf.length ∧ (∀ j < 15, buf'.getD j 0 = buf.getD j 0) ∧
      ∀ i < n, ∃ v, vecValue[i + off]? = some v ∧ env.asUInt8 v = .ok (buf'.getD (15 + i) 0) := by
  induction n generalizing buf' with
  | zero =>
    obtain rfl : buf = buf' := by simpa [pure, Except.pure] using h
    exact ⟨rfl, fun _ _ => rfl, by simp⟩
  | succ n ih =>
    rw [foldlM_range_succ] at h
    obtain ⟨b, hb, h⟩ := bind_eq_ok.mp h
    obtain ⟨v, hv, h⟩ := bind_eq_ok.mp h
    obtain ⟨c, hc, h⟩ := bind_eq_ok.mp h
    obtain ⟨hlen, hkeep, helem⟩ := ih hb
    have hget (j : ℕ) : buf'.getD j 0 = if j = 15 + n then c else b.getD j 0 := poke_getD h j
    refine ⟨(poke_length h).trans hlen, fun j hj => ?_, fun i hi => ?_⟩
    · rw [hget, if_neg (by omega), hkeep j hj]
    · rw [hget]
      by_cases hin : i = n
      · subst hin
        unfold valueAt at hv
        rcases hvec : vecValue[i + off]? with _ | w
        · simp [hvec] at hv
        · obtain rfl : w = v := by simpa [hvec] using hv
          exact ⟨w, rfl, by rw [if_pos rfl, hc]⟩
      · rw [if_neg (by omega)]
        exact helem i (by omega)

omit [Double R] in
lemma exists_yxElems {vecValue : List V} {off n : ℕ} {buf : Frame}
    (hval : ∀ i < n, ∃ v c, vecValue[i + off]? = some v ∧ env.asUInt8 v = .ok c)
    (hbuf : 15 + n ≤ buf.length) :
    ∃ buf', (List.range n).foldlM (fun buf i => do
      poke buf (apHeadLen + i) (← env.asUInt8 (← valueAt vecValue (i + off)))) buf = .ok buf' := by
  induction n with
  | zero => exact ⟨buf, rfl⟩
  | succ n ih =>
    obtain ⟨b, hb⟩ := ih (fun i hi => hval i (by omega)) (by omega)
    obtain ⟨v, c, hv, hc⟩ := hval n (by omega)
    have hlen := (yxElems_eq_ok hb).1
    have hv' : valueAt vecValue (n + off) = .ok v := by
      simp [valueAt, hv]
    have hpoke : poke b (apHeadLen + n) c = .ok (b.set (apHeadLen + n) c) :=
      poke_of_lt (by unfold apHeadLen; omega) c
    refine ⟨b.set (apHeadLen + n) c, ?_⟩
    rw [foldlM_range_succ]
    exact bind_eq_ok.mpr ⟨b, hb, bind_eq_ok.mpr ⟨v, hv', bind_eq_ok.mpr ⟨c, hc, hpoke⟩⟩⟩

omit [Double R] in
/-- What a segment of signals holds, from whatever buffer it is made. -/
lemma yxSegment_eq_ok {vecValue : List V} {startAddr : ℤ} {s : Plug} {k realNum : ℕ}
    {buf f : Frame} (h : yxSegment env vecValue startAddr s k realNum buf = .ok f) :
    Segment startAddr k realNum 1 f ∧ ∀ i < realNum, ∃ v,
      vecValue[i + k * sqMaxNum]? = some v ∧ env.asUInt8 v = .ok (f.getD (15 + i) 0) := by
  obtain ⟨head, hhead, h⟩ := bind_eq_ok.mp h
  obtain ⟨full, hfull, h⟩ := bind_eq_ok.mp h
  obtain ⟨apci, hapci, h⟩ := bind_eq_ok.mp h
  obtain rfl : resize (realNum + 15) apci = f := by simpa using h
  obtain ⟨-, hkeep, helem⟩ := yxElems_eq_ok hfull
  constructor
  · have hseg : Segment startAddr k realNum 1 (resize (realNum * 1 + 15) apci) :=
      segment_of_parts hhead hkeep (by simpa using hapci)
    rwa [Nat.mul_one] at hseg
  · intro i hi
    obtain ⟨v, hv, hc⟩ := helem i hi
    refine ⟨v, hv, ?_⟩
    rw [getD_resize (by omega), setAPCI_rest hapci (by omega), hc]

omit [Double R] in
/-- A segment of signals is made if its values convert and its buffer holds it. -/
lemma exists_yxSegment {vecValue : List V} {startAddr : ℤ} (s : Plug) {k realNum : ℕ} {buf : Frame}
    (h0 : intMin ≤ startAddr + k * sqMaxNum) (haddr : startAddr + k * sqMaxNum ≤ intMax)
    (hval : ∀ i < realNum, ∃ v c,
      vecValue[i + k * sqMaxNum]? = some v ∧ env.asUInt8 v = .ok c)
    (hbuf : 15 + realNum ≤ buf.length) :
    ∃ f, yxSegment env vecValue startAddr s k realNum buf = .ok f := by
  have hroom : apHeadLen ≤ buf.length := by
    unfold apHeadLen
    omega
  obtain ⟨head, hhead⟩ := exists_giHead hroom h0 haddr realNum
  have hlen : 15 + realNum ≤ head.length := by
    rw [(giHead_eq_ok hhead).1]
    exact hbuf
  obtain ⟨full, hfull⟩ := exists_yxElems hval hlen
  have hlen' : 6 ≤ full.length := by
    rw [(yxElems_eq_ok hfull).1]
    omega
  obtain ⟨apci, hapci⟩ := exists_setAPCI s (realNum + 13) hlen'
  exact ⟨_, bind_eq_ok.mpr ⟨head, hhead, bind_eq_ok.mpr ⟨full, hfull,
    bind_eq_ok.mpr ⟨apci, hapci, rfl⟩⟩⟩⟩

/-! ### Measurements -/

omit [Double R] in
/-- The values are written behind the head. -/
lemma ycElem_keeps {type : MonitorType} {vecValue : List V} {byteNum qualityNum i off : ℕ}
    {buf buf' : Frame} (h : (do
      let v ← valueAt vecValue (i + off)
      let value ← if type = .mMeNc1 then List.ofFn <$> env.floatOctets v
        else List.ofFn <$> env.shortOctets v
      let buf ← pokes buf ((value.take byteNum).mapIdx fun b c => (apHeadLen + i + b, c))
      if qualityNum ≠ 0 then poke buf (apHeadLen + i + (byteNum + qualityNum)) 0
      else .ok buf : Except Fault Frame) = .ok buf') {j : ℕ} (hj : j < 15) :
    buf'.getD j 0 = buf.getD j 0 := by
  obtain ⟨v, -, h⟩ := bind_eq_ok.mp h
  have hvalue : ∃ value : List UInt8, (do
      let buf ← pokes buf ((value.take byteNum).mapIdx fun b c => (apHeadLen + i + b, c))
      if qualityNum ≠ 0 then poke buf (apHeadLen + i + (byteNum + qualityNum)) 0
      else .ok buf : Except Fault Frame) = .ok buf' := by
    by_cases htype : type = .mMeNc1
    · simp only [if_pos htype] at h
      obtain ⟨value, -, h⟩ := bind_eq_ok.mp h
      exact ⟨value, h⟩
    · simp only [if_neg htype] at h
      obtain ⟨value, -, h⟩ := bind_eq_ok.mp h
      exact ⟨value, h⟩
  obtain ⟨value, h⟩ := hvalue
  obtain ⟨b, hb, h⟩ := bind_eq_ok.mp h
  have hkeep : b.getD j 0 = buf.getD j 0 := by
    refine pokes_getD_of_ne hb fun w hw => ?_
    obtain ⟨k, hk, rfl⟩ := List.mem_mapIdx.mp hw
    show 15 + i + k ≠ j
    omega
  split_ifs at h with hq
  · have hne : j ≠ apHeadLen + i + (byteNum + qualityNum) := by
      show j ≠ 15 + i + (byteNum + qualityNum)
      omega
    rw [poke_getD h, if_neg hne, hkeep]
  · obtain rfl : b = buf' := by simpa using h
    exact hkeep

omit [Double R] in
/-- A segment of measurements: its elements leave its head alone, and the APCI comes last. -/
lemma ycSegment_parts {type : MonitorType} {vecValue : List V} {startAddr : ℤ}
    {byteNum qualityNum : ℕ} {s : Plug} {k realNum : ℕ} {buf f : Frame}
    (h : ycSegment env type vecValue startAddr byteNum qualityNum s k realNum buf = .ok f) :
    ∃ head full apci, giHead startAddr k realNum buf = .ok head ∧
      (∀ j < 15, full.getD j 0 = head.getD j 0) ∧
      setAPCI s (realNum * (byteNum + qualityNum) + 13 : ℕ) full = .ok apci ∧
      resize (realNum * (byteNum + qualityNum) + 15) apci = f := by
  obtain ⟨head, hhead, h⟩ := bind_eq_ok.mp h
  obtain ⟨full, hfull, h⟩ := bind_eq_ok.mp h
  obtain ⟨apci, hapci, h⟩ := bind_eq_ok.mp h
  refine ⟨head, full, apci, hhead, fun j hj => ?_, by simpa using hapci, by simpa using h⟩
  refine foldlM_inv (P := fun b => b.getD j 0 = head.getD j 0) (fun b i b' hb hpass => ?_) rfl
    hfull
  exact (ycElem_keeps hpass hj).trans hb

omit [Double R] in
/-- The head of a segment of measurements, from whatever buffer it is made. -/
lemma ycSegment_eq_ok {type : MonitorType} {vecValue : List V} {startAddr : ℤ}
    {byteNum qualityNum : ℕ} {s : Plug} {k realNum : ℕ} {buf f : Frame}
    (h : ycSegment env type vecValue startAddr byteNum qualityNum s k realNum buf = .ok f) :
    Segment startAddr k realNum (byteNum + qualityNum) f := by
  obtain ⟨head, full, apci, hhead, hkeep, hapci, rfl⟩ := ycSegment_parts h
  exact segment_of_parts hhead hkeep hapci

/-! ### A table in segments -/

/-- The plug-in after `sendFrame`. -/
def Plug.sends (f : Frame) (s : Plug) : Plug :=
  { s with log := s.log ++ [.sent s.fd f], sendIdx := nextSendIdx s.sendIdx }

lemma exec_sendFrame (f : Frame) (s : Plug) : exec (sendFrame f) s = (.ok ⟨⟩, s.sends f) := by
  simp [sendFrame, engineSendFrame, increaseSendIdx, Plug.sends]

lemma printFrame_ok {b : Bool} (hb : bPrintFrame env.cfg env.name = .ok b) (strType : String)
    (f : Frame) (s : Plug) : exec (printFrame env strType f) s = (.ok ⟨⟩, s) := by
  unfold printFrame
  rw [exec_of_bind, hb]
  rfl

/-- A program that prints first and returns does so from where it was started. -/
lemma of_print_eq_ok {α : Type} {strType : String} {f : Frame} {m : PlugM α} {s t : Plug} {a : α}
    (h : exec (do printFrame env strType f; m) s = (.ok a, t)) : exec m s = (.ok a, t) := by
  rcases exec_printFrame env strType f s with hp | ⟨e, hp⟩
  · rwa [exec_bind_ok hp] at h
  · rw [exec_bind_error hp] at h
    simp at h

variable {strType : String} {segment : Plug → ℕ → ℕ → Frame → Except Fault Frame}
  {n k num : ℕ} {buf f : Frame} {s t : Plug}

lemma sendSegments_of_segment (hf : segment s k (min sqMaxNum num) buf = .ok f) {b : Bool}
    (hb : bPrintFrame env.cfg env.name = .ok b) :
    exec (sendSegments env strType segment n k num buf) s =
      exec (sendRest env strType segment n k num f) (s.sends f) := by
  rw [sendSegments_eq, exec_get_bind, exec_of_bind, hf]
  simp only
  rw [exec_bind_ok (printFrame_ok hb strType f s), exec_bind_ok (exec_sendFrame f s)]

lemma sendSegments_eq_ok (h : exec (sendSegments env strType segment n k num buf) s = (.ok ⟨⟩, t)) :
    ∃ f, segment s k (min sqMaxNum num) buf = .ok f ∧
      exec (sendRest env strType segment n k num f) (s.sends f) = (.ok ⟨⟩, t) := by
  rcases hf : segment s k (min sqMaxNum num) buf with e | f
  · rw [sendSegments_eq, exec_get_bind, exec_of_bind, hf] at h
    simp at h
  rcases hb : bPrintFrame env.cfg env.name with e | b
  · rw [sendSegments_eq, exec_get_bind, exec_of_bind, hf] at h
    simp only [printFrame, hb, exec_bind, exec_of] at h
    simp at h
  · exact ⟨f, rfl, by rwa [sendSegments_of_segment hf hb] at h⟩

/-- As many segments as are sent hold the table. -/
lemma num_le_segments (num : ℕ) : num ≤ sqMaxNum * (num / sqMaxNum + 1) :=
  (Nat.lt_mul_div_succ num (by decide)).le

/-- The frames of a table from segment `k` on, for `num` elements. -/
inductive Segmented (Q : ℕ → ℕ → Frame → Prop) : ℕ → ℕ → List Frame → Prop where
  | last {k num : ℕ} {f : Frame} (hnum : num ≤ sqMaxNum) (hf : Q k num f) :
      Segmented Q k num [f]
  | more {k num : ℕ} {f : Frame} {frames : List Frame} (hnum : sqMaxNum < num)
      (hf : Q k sqMaxNum f) (rest : Segmented Q (k + 1) (num - sqMaxNum) frames) :
      Segmented Q k num (f :: frames)

/-- **A table is sent in its segments**, if the call returns. -/
theorem segmented_of_sendSegments {Q : ℕ → ℕ → Frame → Prop}
    (hseg : ∀ s k realNum buf f, segment s k realNum buf = .ok f → Q k realNum f)
    (hn : num ≤ sqMaxNum * (n + 1))
    (h : exec (sendSegments env strType segment n k num buf) s = (.ok ⟨⟩, t)) :
    ∃ frames, t.log = s.log ++ frames.map (.sent s.fd) ∧ Segmented Q k num frames := by
  induction n generalizing k num buf s with
  | zero =>
    obtain ⟨f, hf, hrest⟩ := sendSegments_eq_ok h
    have hnum : num ≤ sqMaxNum := by omega
    obtain rfl : s.sends f = t := by simpa [sendRest] using hrest
    rw [min_eq_right hnum] at hf
    exact ⟨[f], rfl, .last hnum (hseg _ _ _ _ _ hf)⟩
  | succ n ih =>
    obtain ⟨f, hf, hrest⟩ := sendSegments_eq_ok h
    by_cases hmore : sqMaxNum < num
    · rw [min_eq_left hmore.le] at hf
      simp only [sendRest, if_pos hmore] at hrest
      have hle : num - sqMaxNum ≤ sqMaxNum * (n + 1) := by
        rw [Nat.mul_succ] at hn
        omega
      obtain ⟨frames, hlog, hcut⟩ := ih hle hrest
      refine ⟨f :: frames, ?_, .more hmore (hseg _ _ _ _ _ hf) hcut⟩
      rw [hlog]
      simp [Plug.sends]
    · have hnum : num ≤ sqMaxNum := Nat.le_of_not_lt hmore
      simp only [sendRest, if_neg hmore, exec_pure, Prod.mk.injEq, true_and] at hrest
      subst hrest
      rw [min_eq_right hnum] at hf
      exact ⟨[f], rfl, .last hnum (hseg _ _ _ _ _ hf)⟩

/-- A table is sent through if each of its segments can be made from the buffer the segment
before leaves. -/
lemma exists_sendSegments (Fits : ℕ → ℕ → Frame → Prop) {b : Bool}
    (hb : bPrintFrame env.cfg env.name = .ok b)
    (hmake : ∀ s k num buf, Fits k num buf → ∃ f, segment s k (min sqMaxNum num) buf = .ok f ∧
      (sqMaxNum < num → Fits (k + 1) (num - sqMaxNum) f))
    (h : Fits k num buf) :
    ∃ t, exec (sendSegments env strType segment n k num buf) s = (.ok ⟨⟩, t) := by
  induction n generalizing k num buf s with
  | zero =>
    obtain ⟨f, hf, -⟩ := hmake s k num buf h
    rw [sendSegments_of_segment hf hb]
    exact ⟨_, rfl⟩
  | succ n ih =>
    obtain ⟨f, hf, hnext⟩ := hmake s k num buf h
    rw [sendSegments_of_segment hf hb]
    by_cases hmore : sqMaxNum < num
    · simp only [sendRest, if_pos hmore]
      exact ih (hnext hmore)
    · simp only [sendRest, if_neg hmore]
      exact ⟨_, rfl⟩

end DataEngine.TransIEC104
