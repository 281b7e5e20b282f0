import DataEngine.Plug.IEC104.Measurements
import DataEngine.Plug.IEC104.Octets
import DataEngine.Data.Transmit

/-!
The values a general interrogation indexes.

The loops over a table go by its size, the vector they index is as long as the values that were
delivered. The two senders are written again with their reads of the vector watched, and the
reads that stay inside are told from the table, the store and what may end a call early.
-/

namespace DataEngine.TransIEC104.Values

open ConfigParse Lib.Effect Lib.Watch
open Octets (Access PlugW)

variable {R V : Type}

/-- `vecValue[i]` -/
def valueAt (vecValue : List V) (i : ℕ) : PlugW V :=
  .access ⟨i, vecValue.length⟩ (TransIEC104.valueAt vecValue i)

lemma all_valueAt {vecValue : List V} {i : ℕ} {s : Plug} :
    Watched.All Access.Inside (valueAt vecValue i) s ↔ i < vecValue.length := by
  unfold valueAt
  rw [Watched.all_access]
  rfl

/-! ### The loop over a segment -/

variable (put : Frame → ℕ → V → Except Fault Frame) (vecValue : List V) (w off : ℕ)

/-- Pass `j` reads the value at `j * w`, past the segments before, and puts it at `j * w`. -/
def loop (n : ℕ) (buf : Frame) : PlugW Frame :=
  (List.range n).foldlM (fun buf j => do
    let v ← valueAt vecValue (j * w + off)
    .lift (Prog.of (put buf (j * w) v))) buf

/-- The loop without the watching. -/
def loopResult (n : ℕ) (buf : Frame) : Except Fault Frame :=
  (List.range n).foldlM
    (fun buf j => do put buf (j * w) (← TransIEC104.valueAt vecValue (j * w + off))) buf

variable {put vecValue w off}

lemma loop_run (n : ℕ) (buf : Frame) :
    (loop put vecValue w off n buf).run = Prog.of (loopResult put vecValue w off n buf) := by
  simp only [loop, loopResult, Watched.run_foldlM, Prog.of_foldlM, Prog.of_bind, Watched.run_bind,
    Watched.run_lift]
  rfl

/-- The values that convert are put, in the buffers that have room. -/
structure Puts (put : Frame → ℕ → V → Except Fault Frame) (Converts : V → Prop) (w n : ℕ)
    (Room : Frame → Prop) : Prop where
  ok : ∀ buf j v, Room buf → j < n → Converts v → ∃ buf', put buf (j * w) v = .ok buf'
  room : ∀ buf i v buf', Room buf → put buf i v = .ok buf' → Room buf'
  converts : ∀ buf i v buf', put buf i v = .ok buf' → Converts v

/-- The read at `i` gets a value that converts. -/
def Passes (vecValue : List V) (Converts : V → Prop) (i : ℕ) : Prop :=
  ∃ v, vecValue[i]? = some v ∧ Converts v

variable {Converts : V → Prop} {Room : Frame → Prop} {n m : ℕ} {buf : Frame}

lemma Puts.mono (h : Puts put Converts w n Room) (hm : m ≤ n) : Puts put Converts w m Room :=
  ⟨fun buf j v hbuf hj => h.ok buf j v hbuf (hj.trans_le hm), h.room, h.converts⟩

/-- The loop returns if and only if all of its reads get a value that converts. -/
lemma loopResult_iff (h : Puts put Converts w n Room) (hbuf : Room buf) :
    (∀ f, loopResult put vecValue w off n buf = .ok f →
      Room f ∧ ∀ j < n, Passes vecValue Converts (j * w + off)) ∧
    ((∀ j < n, Passes vecValue Converts (j * w + off)) →
      ∃ f, loopResult put vecValue w off n buf = .ok f) := by
  unfold loopResult
  induction n with
  | zero =>
    refine ⟨fun f hf => ?_, fun _ => ⟨buf, rfl⟩⟩
    obtain rfl : buf = f := by simpa [pure, Except.pure] using hf
    exact ⟨hbuf, by simp⟩
  | succ n ih =>
    obtain ⟨hall, hex⟩ := ih (h.mono (Nat.le_succ n))
    simp only [foldlM_range_succ]
    constructor
    · intro f hf
      obtain ⟨b, hb, hf⟩ := bind_eq_ok.mp hf
      obtain ⟨v, hv, hput⟩ := bind_eq_ok.mp hf
      obtain ⟨hroom, hpass⟩ := hall b hb
      refine ⟨h.room _ _ _ _ hroom hput, fun j hj => ?_⟩
      rcases Nat.lt_succ_iff_lt_or_eq.mp hj with hlt | rfl
      · exact hpass j hlt
      · exact ⟨v, valueAt_eq_ok.mp hv, h.converts _ _ _ _ hput⟩
    · intro hpass
      obtain ⟨b, hb⟩ := hex fun j hj => hpass j (by omega)
      obtain ⟨v, hv, hconv⟩ := hpass n (Nat.lt_succ_self n)
      obtain ⟨f, hf⟩ := h.ok b n v (hall b hb).1 (Nat.lt_succ_self n) hconv
      exact ⟨f, bind_eq_ok.mpr ⟨b, hb, bind_eq_ok.mpr ⟨v, valueAt_eq_ok.mpr hv, hf⟩⟩⟩

/-- The reads of the loop stay inside if and only if each does that is come to. -/
lemma all_loop (h : Puts put Converts w n Room) (hbuf : Room buf) (s : Plug) :
    Watched.All Access.Inside (loop put vecValue w off n buf) s ↔
      ∀ j < n, (∀ i < j, Passes vecValue Converts (i * w + off)) →
        j * w + off < vecValue.length := by
  induction n with
  | zero =>
    simp only [Nat.not_lt_zero, IsEmpty.forall_iff, implies_true, iff_true]
    exact Watched.all_pure buf
  | succ n ih =>
    have hn := h.mono (Nat.le_succ n)
    have hlast (c : Frame) (t : Plug) : Watched.All Access.Inside (do
        let v ← valueAt vecValue (n * w + off)
        .lift (Prog.of (put c (n * w) v)) : PlugW Frame) t ↔ n * w + off < vecValue.length := by
      rw [Watched.all_bind, all_valueAt]
      exact and_iff_left fun _ _ _ => Watched.all_lift _
    have hrun (c : Frame) (t : Plug) :
        exec ((List.range n).foldlM (fun buf j => do
          let v ← valueAt vecValue (j * w + off)
          .lift (Prog.of (put buf (j * w) v)) : Frame → ℕ → PlugW Frame) buf).run s = (.ok c, t) ↔
        loopResult put vecValue w off n buf = .ok c ∧ s = t := by
      have hrun : (loop put vecValue w off n buf).run =
          Prog.of (loopResult put vecValue w off n buf) := loop_run n buf
      unfold loop at hrun
      rw [hrun, exec_of, Prod.mk.injEq]
    unfold loop at ih ⊢
    rw [Watched.all_foldlM_range_succ, ih hn]
    simp only [hrun, hlast]
    constructor
    · rintro ⟨hall, hl⟩ j hj hpass
      rcases Nat.lt_succ_iff_lt_or_eq.mp hj with hlt | rfl
      · exact hall j hlt hpass
      · obtain ⟨f, hf⟩ := (loopResult_iff hn hbuf).2 hpass
        exact hl f s ⟨hf, rfl⟩
    · intro hall
      refine ⟨fun j hj => hall j (by omega), ?_⟩
      rintro c t ⟨hc, rfl⟩
      exact hall n (Nat.lt_succ_self n) ((loopResult_iff hn hbuf).1 c hc).2

/-! ### Tables -/

/-- Among the `num` numbers from segment `k` on, those the loops of width `w` visit. -/
def Visits (w k num i : ℕ) : Prop := k * sqMaxNum ≤ i ∧ i < k * sqMaxNum + num ∧ w ∣ i % sqMaxNum

lemma visits_iff {w k r i : ℕ} (hr : r ≤ sqMaxNum) :
    Visits w k r i ↔ ∃ j, j * w < r ∧ j * w + k * sqMaxNum = i := by
  unfold Visits sqMaxNum at *
  constructor
  · rintro ⟨hle, hlt, j, hj⟩
    have : i % 127 = i - k * 127 := by omega
    exact ⟨j, by rw [Nat.mul_comm]; omega, by rw [Nat.mul_comm]; omega⟩
  · rintro ⟨j, hj, rfl⟩
    have hmod : (j * w + k * 127) % 127 = j * w := by omega
    exact ⟨by omega, by omega, by rw [hmod]; exact Nat.dvd_mul_left w j⟩

/-- A call that began with segment `k` comes to number `i`: the values before it convert, the
addresses of its segment and of those before are right, and frames can be printed. -/
structure Reaches (vecValue : List V) (Converts : V → Prop) (AddrOk : ℕ → Prop) (Printed : Prop)
    (w k i : ℕ) : Prop where
  passed : ∀ j, j < i → Visits w k (i - k * sqMaxNum) j → Passes vecValue Converts j
  addr : ∀ k' ≥ k, k' * sqMaxNum ≤ i → AddrOk k'
  printed : (k + 1) * sqMaxNum ≤ i → Printed

/-- What a watched segment does: which of its reads are made, when it returns, and that the
buffer of a full one serves the next. -/
structure Reads (seg : Plug → ℕ → ℕ → Frame → PlugW Frame)
    (seg' : Plug → ℕ → ℕ → Frame → Except Fault Frame) (vecValue : List V) (Converts : V → Prop)
    (AddrOk : ℕ → Prop) (w : ℕ) (Room : Frame → Prop) : Prop where
  run : ∀ s k r buf, (seg s k r buf).run = Prog.of (seg' s k r buf)
  all : ∀ s k r buf, Room buf → r ≤ sqMaxNum → (Watched.All Access.Inside (seg s k r buf) s ↔
    (AddrOk k → ∀ i, Visits w k r i →
      (∀ j, j < i → Visits w k sqMaxNum j → Passes vecValue Converts j) → i < vecValue.length))
  returned : ∀ s k r buf f, Room buf → r ≤ sqMaxNum → seg' s k r buf = .ok f →
    AddrOk k ∧ (∀ i, Visits w k r i → Passes vecValue Converts i) ∧ (r = sqMaxNum → Room f)
  returns : ∀ s k r buf, Room buf → r ≤ sqMaxNum → AddrOk k →
    (∀ i, Visits w k r i → Passes vecValue Converts i) → ∃ f, seg' s k r buf = .ok f

variable [Double R] {env : Env R V} {AddrOk : ℕ → Prop}
  {seg : Plug → ℕ → ℕ → Frame → PlugW Frame}
  {seg' : Plug → ℕ → ℕ → Frame → Except Fault Frame} {strType : String} {k num : ℕ} {s : Plug}

variable (env) in
def Printed : Prop := ∃ b, bPrintFrame env.cfg env.name = .ok b

lemma exec_printFrame_iff {f : Frame} {s t : Plug} :
    exec (printFrame env strType f) s = (.ok ⟨⟩, t) ↔ Printed env ∧ s = t := by
  unfold printFrame Printed
  rw [exec_of_bind]
  rcases bPrintFrame env.cfg env.name with e | b <;> simp

variable (env seg strType) in
/-- What is left of a table after a segment. -/
def sendRest (n k num : ℕ) (f : Frame) : PlugW Unit :=
  match n with
  | 0 => pure ()
  | n + 1 =>
    if sqMaxNum < num then Octets.sendSegments env strType seg n (k + 1) (num - sqMaxNum) f
    else pure ()

lemma all_sendSegments_step (hrun : ∀ s k r buf, (seg s k r buf).run = Prog.of (seg' s k r buf)) :
    Watched.All Access.Inside (Octets.sendSegments env strType seg n k num buf) s ↔
      Watched.All Access.Inside (seg s k (min sqMaxNum num) buf) s ∧
        ∀ f, seg' s k (min sqMaxNum num) buf = .ok f → Printed env →
          Watched.All Access.Inside (sendRest env seg strType n k num f) (s.sends f) := by
  have heq : Octets.sendSegments env strType seg n k num buf = (do
      let s ← .lift get
      let sendBuf ← seg s k (min sqMaxNum num) buf
      .lift (printFrame env strType sendBuf)
      .lift (sendFrame sendBuf)
      sendRest env seg strType n k num sendBuf) :=
    Octets.sendSegments_eq env strType seg n k num buf
  rw [heq, Watched.all_bind_of_ok (m := .lift get) (exec_get s), Watched.all_bind]
  simp only [Watched.all_lift, true_and, hrun, exec_of, Prod.mk.injEq]
  refine and_congr_right fun _ => ⟨?_, ?_⟩
  · rintro h f hf ⟨b, hb⟩
    have hall := h f s ⟨hf, rfl⟩
    rw [Watched.all_bind_of_ok (m := .lift (printFrame env strType f))
        (printFrame_ok hb strType f s),
      Watched.all_bind_of_ok (m := .lift (sendFrame f)) (exec_sendFrame f s)] at hall
    exact hall.2.2
  · rintro h f t ⟨hf, rfl⟩
    rw [Watched.all_bind]
    refine ⟨Watched.all_lift _, fun _ t ht => ?_⟩
    rw [Watched.run_lift] at ht
    obtain ⟨hp, rfl⟩ := exec_printFrame_iff.mp ht
    rw [Watched.all_bind_of_ok (m := .lift (sendFrame f)) (exec_sendFrame f s)]
    exact ⟨Watched.all_lift _, h f hf hp⟩

/-- Behind a full segment the call goes on as if it began there. -/
lemma reaches_succ_iff {i : ℕ} (hi : (k + 1) * sqMaxNum ≤ i) {P : Prop} :
    Reaches vecValue Converts AddrOk P w k i ↔
      AddrOk k ∧ (∀ j, Visits w k sqMaxNum j → Passes vecValue Converts j) ∧ P ∧
        Reaches vecValue Converts AddrOk P w (k + 1) i := by
  have hsucc : (k + 1) * sqMaxNum = k * sqMaxNum + sqMaxNum := Nat.succ_mul _ _
  constructor
  · intro h
    refine ⟨h.addr k (le_refl k) (by omega), fun j hj => ?_, h.printed hi, ?_⟩
    · have := hj.2.1
      exact h.passed j (by omega) ⟨hj.1, by omega, hj.2.2⟩
    · refine ⟨fun j hj hv => ?_, fun k' hk => h.addr k' (by omega), fun _ => h.printed hi⟩
      have hlo := hv.1
      have hhi := hv.2.1
      exact h.passed j hj ⟨by omega, by omega, hv.2.2⟩
  · rintro ⟨haddr, hseg, hp, h⟩
    refine ⟨fun j hj hv => ?_, fun k' hk hle => ?_, fun _ => hp⟩
    · by_cases hin : j < (k + 1) * sqMaxNum
      · exact hseg j ⟨hv.1, by omega, hv.2.2⟩
      · exact h.passed j hj ⟨by omega, by omega, hv.2.2⟩
    · rcases hk.lt_or_eq with hlt | rfl
      · exact h.addr k' hlt hle
      · exact haddr

/-- In its own segment a number is come to past the numbers before it. -/
lemma reaches_here_iff {i : ℕ} (h0 : k * sqMaxNum ≤ i) (hi : i < (k + 1) * sqMaxNum) {P : Prop} :
    Reaches vecValue Converts AddrOk P w k i ↔
      AddrOk k ∧ ∀ j, j < i → Visits w k sqMaxNum j → Passes vecValue Converts j := by
  have hsucc : (k + 1) * sqMaxNum = k * sqMaxNum + sqMaxNum := Nat.succ_mul _ _
  constructor
  · intro h
    exact ⟨h.addr k (le_refl k) h0, fun j hj hv => h.passed j hj ⟨hv.1, by omega, hv.2.2⟩⟩
  · rintro ⟨haddr, hpass⟩
    refine ⟨fun j hj hv => hpass j hj ⟨hv.1, ?_, hv.2.2⟩, fun k' hk hle => ?_, fun hle => by omega⟩
    · have := hv.2.1
      omega
    · have : k' < k + 1 := Nat.lt_of_mul_lt_mul_right (hle.trans_lt hi)
      obtain rfl : k' = k := by omega
      exact haddr

lemma Reads.all_iff (h : Reads seg seg' vecValue Converts AddrOk w Room) (hbuf : Room buf) {r : ℕ}
    (hr : r ≤ sqMaxNum) (P : Prop) : Watched.All Access.Inside (seg s k r buf) s ↔
      ∀ i, Visits w k r i → Reaches vecValue Converts AddrOk P w k i → i < vecValue.length := by
  have hsucc : (k + 1) * sqMaxNum = k * sqMaxNum + sqMaxNum := Nat.succ_mul _ _
  rw [h.all _ _ _ _ hbuf hr]
  constructor
  · intro hall i hi hreach
    obtain ⟨haddr, hpass⟩ := (reaches_here_iff hi.1 (by have := hi.2.1; omega)).mp hreach
    exact hall haddr i hi hpass
  · intro hall haddr i hi hpass
    exact hall i hi ((reaches_here_iff hi.1 (by have := hi.2.1; omega)).mpr ⟨haddr, hpass⟩)

/-- **The reads of a table** stay inside if and only if each does that the call comes to. -/
lemma all_sendSegments (h : Reads seg seg' vecValue Converts AddrOk w Room) (hbuf : Room buf)
    (hn : num ≤ sqMaxNum * (n + 1)) :
    Watched.All Access.Inside (Octets.sendSegments env strType seg n k num buf) s ↔
      ∀ i, Visits w k num i → Reaches vecValue Converts AddrOk (Printed env) w k i →
        i < vecValue.length := by
  induction n generalizing k num buf s with
  | zero =>
    have hnum : num ≤ sqMaxNum := by omega
    have hrest (f : Frame) : Watched.All Access.Inside (sendRest env seg strType 0 k num f)
        (s.sends f) := Watched.all_pure _
    rw [all_sendSegments_step h.run, min_eq_right hnum, h.all_iff hbuf hnum (Printed env)]
    simp only [hrest, implies_true, and_true]
  | succ n ih =>
    rw [all_sendSegments_step h.run, h.all_iff hbuf (Nat.min_le_left _ _) (Printed env)]
    by_cases hmore : sqMaxNum < num
    · have hsucc : (k + 1) * sqMaxNum = k * sqMaxNum + sqMaxNum := Nat.succ_mul _ _
      have hle : num - sqMaxNum ≤ sqMaxNum * (n + 1) := by
        rw [Nat.mul_succ] at hn
        omega
      simp only [min_eq_left hmore.le, sendRest, if_pos hmore]
      constructor
      · rintro ⟨hseg, hrest⟩ i hi hreach
        have hlo := hi.1
        have hhi := hi.2.1
        by_cases hin : i < (k + 1) * sqMaxNum
        · exact hseg i ⟨hlo, by omega, hi.2.2⟩ hreach
        · obtain ⟨haddr, hpass, hp, hreach⟩ := (reaches_succ_iff (Nat.le_of_not_lt hin)).mp hreach
          obtain ⟨f, hf⟩ := h.returns s k _ buf hbuf (le_refl _) haddr hpass
          have hroom := (h.returned s k _ buf f hbuf (le_refl _) hf).2.2 rfl
          exact (ih hroom hle).mp (hrest f hf hp) i ⟨by omega, by omega, hi.2.2⟩ hreach
      · intro hall
        refine ⟨fun i hi => hall i ⟨hi.1, by have := hi.2.1; omega, hi.2.2⟩, fun f hf hp => ?_⟩
        obtain ⟨haddr, hpass, hroom⟩ := h.returned s k _ buf f hbuf (le_refl _) hf
        refine (ih (hroom rfl) hle).mpr fun i hi hreach => ?_
        have hlo := hi.1
        have hhi := hi.2.1
        exact hall i ⟨by omega, by omega, hi.2.2⟩
          ((reaches_succ_iff hlo).mpr ⟨haddr, hpass, hp, hreach⟩)
    · have hrest (f : Frame) : Watched.All Access.Inside (sendRest env seg strType (n + 1) k num f)
          (s.sends f) := by
        simp only [sendRest, if_neg hmore]
        exact Watched.all_pure _
      simp only [min_eq_right (Nat.le_of_not_lt hmore), hrest, implies_true, and_true]

/-! ### The two senders -/

/-- A segment of elements of width `w`. -/
def segment (startAddr : ℤ) (put : Frame → ℕ → V → Except Fault Frame) (vecValue : List V) (w : ℕ)
    (s : Plug) (k realNum : ℕ) (buf : Frame) : PlugW Frame := do
  let buf ← .lift (Prog.of (giHead startAddr k realNum buf))
  let buf ← loop put vecValue w (k * sqMaxNum) ((realNum + w - 1) / w) buf
  .lift (Prog.of (do
    let buf ← setAPCI s (realNum * w + 13) buf
    .ok (resize (realNum * w + 15) buf)))

/-- The segment without the watching. -/
def segmentResult (startAddr : ℤ) (put : Frame → ℕ → V → Except Fault Frame) (vecValue : List V)
    (w : ℕ) (s : Plug) (k realNum : ℕ) (buf : Frame) : Except Fault Frame := do
  let buf ← giHead startAddr k realNum buf
  let buf ← loopResult put vecValue w (k * sqMaxNum) ((realNum + w - 1) / w) buf
  let buf ← setAPCI s (realNum * w + 13) buf
  .ok (resize (realNum * w + 15) buf)

/-- The address of a segment is an `int`. -/
def AddrIsInt (startAddr : ℤ) (k : ℕ) : Prop :=
  intMin ≤ startAddr + k * sqMaxNum ∧ startAddr + k * sqMaxNum ≤ intMax

/-- The buffer holds a full segment. -/
def Holds (w : ℕ) (buf : Frame) : Prop := 15 + sqMaxNum * w ≤ buf.length

lemma addrIsInt_of_giHead {startAddr : ℤ} {k realNum : ℕ} {buf buf' : Frame}
    (h : giHead startAddr k realNum buf = .ok buf') : AddrIsInt startAddr k := by
  obtain ⟨addr, haddr, -⟩ := bind_eq_ok.mp h
  obtain ⟨h0, h1, -⟩ := intAdd_eq_ok.mp haddr
  exact ⟨h0, h1⟩

/-- The head of a segment can be written into such a buffer. -/
lemma Holds.room (h : Holds w buf) : apHeadLen ≤ buf.length := by
  unfold Holds at h
  unfold apHeadLen
  omega

lemma Holds.head {startAddr : ℤ} {r : ℕ} {head : Frame} (h : Holds w buf)
    (hh : giHead startAddr k r buf = .ok head) : Holds w head := by
  unfold Holds
  rw [(giHead_eq_ok hh).1]
  exact h

section Segment

variable {startAddr : ℤ} {r : ℕ} {f : Frame}

/-- The values a segment visits are those of the passes of its loop. -/
lemma forall_visits_iff (hw : 0 < w) (hr : r ≤ sqMaxNum) {P : ℕ → Prop} :
    (∀ i, Visits w k r i → P i) ↔ ∀ j < (r + w - 1) / w, P (j * w + k * sqMaxNum) := by
  constructor
  · intro hi j hj
    exact hi _ ((visits_iff hr).mpr ⟨j, (lt_passes_iff hw).mp hj, rfl⟩)
  · intro hj i hi
    obtain ⟨j, hlt, rfl⟩ := (visits_iff hr).mp hi
    exact hj j ((lt_passes_iff hw).mpr hlt)

variable (hput : Puts put Converts w ((r + w - 1) / w) (Holds w))

include hput

omit [Double R] in
lemma all_segment (hw : 0 < w) (hbuf : Holds w buf) (hr : r ≤ sqMaxNum) (s : Plug) :
    Watched.All Access.Inside (segment startAddr put vecValue w s k r buf) s ↔
      (AddrIsInt startAddr k → ∀ i, Visits w k r i →
        (∀ j, j < i → Visits w k sqMaxNum j → Passes vecValue Converts j) →
          i < vecValue.length) := by
  have hmem {i j : ℕ} (hij : i < j) : i * w + k * sqMaxNum < j * w + k * sqMaxNum :=
    Nat.add_lt_add_right (Nat.mul_lt_mul_of_pos_right hij hw) _
  have hall (head : Frame) (hh : giHead startAddr k r buf = .ok head) :
      Watched.All Access.Inside
        (loop put vecValue w (k * sqMaxNum) ((r + w - 1) / w) head) s ↔ _ :=
    all_loop hput (hbuf.head hh) s
  unfold segment
  rw [Watched.all_bind]
  simp only [Watched.all_lift, true_and, Watched.run_lift, exec_of, Prod.mk.injEq]
  constructor
  · intro hseg haddr i hi hpassed
    obtain ⟨head, hh⟩ := exists_giHead hbuf.room haddr.1 haddr.2 r
    have hloop := (Watched.all_bind.mp (hseg head s ⟨hh, rfl⟩)).1
    obtain ⟨j, hj, rfl⟩ := (visits_iff hr).mp hi
    refine (hall head hh).mp hloop j ((lt_passes_iff hw).mpr hj) fun i hij => ?_
    refine hpassed _ (hmem hij) ((visits_iff (le_refl _)).mpr ⟨i, ?_, rfl⟩)
    have := Nat.mul_lt_mul_of_pos_right hij hw
    omega
  · rintro hinside head t ⟨hh, rfl⟩
    rw [Watched.all_bind]
    refine ⟨(hall head hh).mpr fun j hj hpassed => ?_, fun _ _ _ => Watched.all_lift _⟩
    refine hinside (addrIsInt_of_giHead hh) _
      ((visits_iff hr).mpr ⟨j, (lt_passes_iff hw).mp hj, rfl⟩) fun i hij hi => ?_
    obtain ⟨i, -, rfl⟩ := (visits_iff (le_refl _)).mp hi
    refine hpassed i (Nat.lt_of_mul_lt_mul_right (Nat.lt_of_add_lt_add_right hij))

lemma segmentResult_returned (hw : 0 < w) {s : Plug} (hbuf : Holds w buf) (hr : r ≤ sqMaxNum)
    (hf : segmentResult startAddr put vecValue w s k r buf = .ok f) :
    AddrIsInt startAddr k ∧ (∀ i, Visits w k r i → Passes vecValue Converts i) ∧
      (r = sqMaxNum → Holds w f) := by
  obtain ⟨head, hh, hf⟩ := bind_eq_ok.mp hf
  obtain ⟨full, hfull, hf⟩ := bind_eq_ok.mp hf
  obtain ⟨apci, -, hf⟩ := bind_eq_ok.mp hf
  obtain ⟨-, hp⟩ := (loopResult_iff hput (hbuf.head hh)).1 full hfull
  obtain rfl : resize (r * w + 15) apci = f := by simpa using hf
  refine ⟨addrIsInt_of_giHead hh, (forall_visits_iff hw hr).mpr hp, ?_⟩
  rintro rfl
  unfold Holds
  rw [resize_length]
  omega

lemma segmentResult_returns (hw : 0 < w) (s : Plug) (hbuf : Holds w buf) (hr : r ≤ sqMaxNum)
    (haddr : AddrIsInt startAddr k) (hp : ∀ i, Visits w k r i → Passes vecValue Converts i) :
    ∃ f, segmentResult startAddr put vecValue w s k r buf = .ok f := by
  obtain ⟨head, hh⟩ := exists_giHead hbuf.room haddr.1 haddr.2 r
  obtain ⟨full, hfull⟩ :=
    (loopResult_iff hput (hbuf.head hh)).2 ((forall_visits_iff hw hr).mp hp)
  have hlen : 6 ≤ full.length := by
    have hroom := ((loopResult_iff hput (hbuf.head hh)).1 full hfull).1.room
    unfold apHeadLen at hroom
    omega
  obtain ⟨apci, hapci⟩ := exists_setAPCI s (r * w + 13) hlen
  exact ⟨_, bind_eq_ok.mpr ⟨head, hh, bind_eq_ok.mpr ⟨full, hfull,
    bind_eq_ok.mpr ⟨apci, hapci, rfl⟩⟩⟩⟩

end Segment

omit [Double R] in
lemma reads_segment {startAddr : ℤ} (hw : 0 < w)
    (h : ∀ r ≤ sqMaxNum, Puts put Converts w ((r + w - 1) / w) (Holds w)) :
    Reads (segment startAddr put vecValue w) (segmentResult startAddr put vecValue w) vecValue
      Converts (AddrIsInt startAddr) w (Holds w) where
  run s k r buf := by
    simp only [segment, segmentResult, Watched.run_bind, Watched.run_lift, loop_run, Prog.of_bind]
  all s k r buf hbuf hr := all_segment (h r hr) hw hbuf hr s
  returned s k r buf f hbuf hr hf := segmentResult_returned (h r hr) hw hbuf hr hf
  returns s k r buf hbuf hr haddr hp := segmentResult_returns (h r hr) hw s hbuf hr haddr hp

variable (env)

def yxPut (buf : Frame) (i : ℕ) (v : V) : Except Fault Frame := do
  poke buf (apHeadLen + i) (← env.asUInt8 v)

/-- What the two senders have in common: a buffer, a table, the values asked for and an address;
an empty table is not sent. -/
def sendTable (type : MonitorType) (elemLen : ℕ) (sec startKey : String)
    (send : ℕ → List V → ℤ → Frame → PlugW Unit) : PlugW Unit := do
  let buf ← .lift (Prog.of (giBuffer env type elemLen))
  let num ← .lift (Prog.of (pointNum env sec))
  if num = 0 then pure ()
  else
    let s ← .lift get
    let vecValue ← .lift (Prog.of (env.getTransMultiValue s.log env.name .signal 0 num))
    let startAddr ← .lift (Prog.of (cfgInt env startKey))
    send num vecValue startAddr buf

def sendGIYx (type : MonitorType) (strType : String) : PlugW Unit :=
  sendTable env type 1 "signal" "yxStart" fun num vecValue startAddr =>
    Octets.sendSegments env strType (segment startAddr (yxPut env) vecValue 1) (num / sqMaxNum) 0
      num

def sendGIYc (type : MonitorType) (strType : String) : PlugW Unit :=
  sendTable env type 5 "measure" "ycStart" fun num vecValue startAddr buf =>
    if type.isMeasure then
      Octets.sendSegments env strType (segment startAddr (ycPut env type) vecValue type.width)
        (num / sqMaxNum) 0 num buf
    else pure ()

/-! ### Forgetting -/

omit [Double R] in
lemma yxSegment_run (vecValue : List V) (yxStartAddr : ℤ) (s : Plug) (k realNum : ℕ) (buf : Frame) :
    (segment yxStartAddr (yxPut env) vecValue 1 s k realNum buf).run =
      Prog.of (TransIEC104.yxSegment env vecValue yxStartAddr s k realNum buf) := by
  simp [segment, loop_run, loopResult, yxPut, TransIEC104.yxSegment, Prog.of_bind, Prog.of_ok]

omit [Double R] in
lemma ycSegment_run (type : MonitorType) (vecValue : List V) (ycStartAddr : ℤ) (s : Plug)
    (k realNum : ℕ) (buf : Frame) :
    (segment ycStartAddr (ycPut env type) vecValue type.width s k realNum buf).run =
      Prog.of (TransIEC104.ycSegment env type vecValue ycStartAddr type.byteNum type.qualityNum s k
        realNum buf) := by
  rw [ycSegment_eq]
  simp [segment, loop_run, loopResult, ycElem, Prog.of_bind, Prog.of_ok]

theorem sendGIYx_run (type : MonitorType) (strType : String) :
    (sendGIYx env type strType).run = TransIEC104.sendGIYx env type strType := by
  simp [sendGIYx, sendTable, TransIEC104.sendGIYx,
    Octets.sendSegments_run env _ (yxSegment_run env _ _)]

theorem sendGIYc_run (type : MonitorType) (strType : String) :
    (sendGIYc env type strType).run = TransIEC104.sendGIYc env type strType := by
  have hsegments (vecValue : List V) (addr : ℤ) (n num : ℕ) (buf : Frame) :=
    Octets.sendSegments_run env strType (ycSegment_run env type vecValue addr) n 0 num buf
  cases type <;> simp only [sendGIYc, sendTable, TransIEC104.sendGIYc, Watched.run_bind,
    Watched.run_lift, Watched.run_ite, Watched.run_pure, hsegments, MonitorType.isMeasure,
    if_true, Bool.false_eq_true, if_false] <;> rfl

/-! ### The reads of a call -/

variable {env} {type : MonitorType}

lemma giBuffer_iff {elemLen : ℕ} :
    (∃ buf, giBuffer env type elemLen = .ok buf) ↔ ∃ addr, cfgInt env "commAddr" = .ok addr := by
  constructor
  · rintro ⟨buf, h⟩
    obtain ⟨addr, haddr, -⟩ := bind_eq_ok.mp h
    exact ⟨addr, haddr⟩
  · rintro ⟨addr, haddr⟩
    exact exists_giBuffer env type elemLen haddr

lemma all_sendTable {elemLen : ℕ} {sec startKey : String}
    {send : ℕ → List V → ℤ → Frame → PlugW Unit} :
    Watched.All Access.Inside (sendTable env type elemLen sec startKey send) s ↔
      ∀ buf num vecValue startAddr, giBuffer env type elemLen = .ok buf →
        pointNum env sec = .ok num → num ≠ 0 →
        env.getTransMultiValue s.log env.name .signal 0 num = .ok vecValue →
        cfgInt env startKey = .ok startAddr →
        Watched.All Access.Inside (send num vecValue startAddr buf) s := by
  have hof {α β : Type} (x : Except Fault α) (f : α → PlugW β) (s : Plug) :
      Watched.All Access.Inside (Watched.lift (Prog.of x) >>= f) s ↔
        ∀ a, x = .ok a → Watched.All Access.Inside (f a) s := by
    rw [Watched.all_bind]
    simp only [Watched.all_lift, true_and, Watched.run_lift, exec_of, Prod.mk.injEq]
    refine ⟨fun h a ha => h a s ⟨ha, rfl⟩, ?_⟩
    rintro h a t ⟨ha, rfl⟩
    exact h a ha
  unfold sendTable
  rw [hof]
  refine forall_congr' fun buf => ?_
  simp only [hof]
  constructor
  · intro h num vecValue startAddr hbuf hnum h0 hvec hstart
    have hnum := h hbuf num hnum
    rw [if_neg h0, Watched.all_bind_of_ok (m := .lift get) (exec_get s), hof] at hnum
    have hvec := hnum.2 vecValue hvec
    rw [hof] at hvec
    exact hvec startAddr hstart
  · intro h hbuf num hnum
    by_cases h0 : num = 0
    · rw [if_pos h0]
      exact Watched.all_pure _
    · rw [if_neg h0, Watched.all_bind_of_ok (m := .lift get) (exec_get s), hof]
      refine ⟨Watched.all_lift _, fun vecValue hvec => ?_⟩
      rw [hof]
      exact fun startAddr hstart => h num vecValue startAddr hbuf hnum h0 hvec hstart

omit [Double R] in
lemma puts_yx {r : ℕ} (hr : r ≤ sqMaxNum) :
    Puts (yxPut env) (fun v => ∃ c, env.asUInt8 v = .ok c) 1 ((r + 1 - 1) / 1) (Holds 1) := by
  refine ⟨?_, ?_, ?_⟩
  · rintro buf j v hbuf hj ⟨c, hc⟩
    have hj : j < r := by simpa using hj
    have hplace : apHeadLen + j * 1 < buf.length := by
      unfold Holds at hbuf
      unfold apHeadLen
      omega
    exact ⟨_, bind_eq_ok.mpr ⟨c, hc, poke_of_lt hplace c⟩⟩
  · intro buf i v buf' hbuf h
    obtain ⟨c, -, h⟩ := bind_eq_ok.mp h
    unfold Holds
    rw [poke_length h]
    exact hbuf
  · intro buf i v buf' h
    obtain ⟨c, hc, -⟩ := bind_eq_ok.mp h
    exact ⟨c, hc⟩

omit [Double R] in
lemma puts_yc {r : ℕ} (hr : r ≤ sqMaxNum) :
    Puts (ycPut env type) (fun v => ∃ e, measured env type v = .ok e) type.width
      ((r + type.width - 1) / type.width) (Holds type.width) := by
  have hw := type.width_bounds
  refine ⟨?_, ?_, ?_⟩
  · rintro buf j v hbuf hj ⟨e, he⟩
    have hj := (lt_passes_iff (by omega)).mp hj
    refine exists_ycPut he ?_
    unfold Holds sqMaxNum at *
    omega
  · intro buf i v buf' hbuf h
    obtain ⟨e, -, h⟩ := bind_eq_ok.mp h
    obtain ⟨b, hb, h⟩ := bind_eq_ok.mp h
    have hlen : buf'.length = b.length := by
      split_ifs at h
      · exact poke_length h
      · obtain rfl : b = buf' := by simpa using h
        rfl
    unfold Holds
    rw [hlen, pokes_length hb]
    exact hbuf
  · intro buf i v buf' h
    obtain ⟨e, he, -⟩ := bind_eq_ok.mp h
    exact ⟨e, he⟩

lemma visits_table {num i : ℕ} : Visits w 0 num i ↔ i < num ∧ w ∣ i % sqMaxNum := by
  simp [Visits]

/-- The reads of the signals stay inside if and only if each number below the size of the table
that the call comes to is below the number of values. -/
theorem all_sendGIYx {strType : String} :
    Watched.All Access.Inside (sendGIYx env type strType) s ↔
      ∀ num vecValue startAddr, (∃ addr, cfgInt env "commAddr" = .ok addr) →
        pointNum env "signal" = .ok num →
        env.getTransMultiValue s.log env.name .signal 0 num = .ok vecValue →
        cfgInt env "yxStart" = .ok startAddr → ∀ i < num,
        Reaches vecValue (fun v => ∃ c, env.asUInt8 v = .ok c) (AddrIsInt startAddr) (Printed env) 1
          0 i → i < vecValue.length := by
  have hsend {num : ℕ} {vecValue : List V} {startAddr : ℤ} {buf : Frame}
      (hbuf : giBuffer env type 1 = .ok buf) : Watched.All Access.Inside
        (Octets.sendSegments env strType (segment startAddr (yxPut env) vecValue 1)
          (num / sqMaxNum) 0 num buf) s ↔ _ :=
    all_sendSegments (reads_segment Nat.one_pos fun r hr => puts_yx hr)
      (show 15 + sqMaxNum * 1 ≤ buf.length by rw [giBuffer_length hbuf]; rfl) (num_le_segments num)
  unfold sendGIYx
  rw [all_sendTable]
  constructor
  · intro h num vecValue startAddr hcomm hnum hvec hstart i hi hreach
    obtain ⟨buf, hbuf⟩ := giBuffer_iff.mpr hcomm
    exact (hsend hbuf).mp (h buf num vecValue startAddr hbuf hnum (by omega) hvec hstart) i
      (visits_table.mpr ⟨hi, Nat.one_dvd _⟩) hreach
  · intro h buf num vecValue startAddr hbuf hnum h0 hvec hstart
    refine (hsend hbuf).mpr fun i hi hreach => ?_
    exact h num vecValue startAddr (giBuffer_iff.mp ⟨buf, hbuf⟩) hnum hvec hstart i
      (visits_table.mp hi).1 hreach

/-- The reads of the measurements stay inside if and only if each number the loops visit and the
call comes to is below the number of values. -/
theorem all_sendGIYc {strType : String} :
    Watched.All Access.Inside (sendGIYc env type strType) s ↔ type.isMeasure →
      ∀ num vecValue startAddr, (∃ addr, cfgInt env "commAddr" = .ok addr) →
        pointNum env "measure" = .ok num →
        env.getTransMultiValue s.log env.name .signal 0 num = .ok vecValue →
        cfgInt env "ycStart" = .ok startAddr → ∀ i < num, type.width ∣ i % sqMaxNum →
        Reaches vecValue (fun v => ∃ e, measured env type v = .ok e) (AddrIsInt startAddr)
          (Printed env) type.width 0 i → i < vecValue.length := by
  have hw := type.width_bounds
  have hsend {num : ℕ} {vecValue : List V} {startAddr : ℤ} {buf : Frame}
      (hbuf : giBuffer env type 5 = .ok buf) : Watched.All Access.Inside
        (Octets.sendSegments env strType (segment startAddr (ycPut env type) vecValue type.width)
          (num / sqMaxNum) 0 num buf) s ↔ _ :=
    all_sendSegments (reads_segment (by omega) fun r hr => puts_yc hr)
      (show 15 + sqMaxNum * type.width ≤ buf.length by
        rw [giBuffer_length hbuf]
        unfold sqMaxNum
        omega) (num_le_segments num)
  unfold sendGIYc
  rw [all_sendTable]
  constructor
  · intro h htype num vecValue startAddr hcomm hnum hvec hstart i hi hdvd hreach
    obtain ⟨buf, hbuf⟩ := giBuffer_iff.mpr hcomm
    have hall := h buf num vecValue startAddr hbuf hnum (by omega) hvec hstart
    rw [if_pos htype] at hall
    exact (hsend hbuf).mp hall i (visits_table.mpr ⟨hi, hdvd⟩) hreach
  · intro h buf num vecValue startAddr hbuf hnum h0 hvec hstart
    by_cases htype : type.isMeasure
    · rw [if_pos htype]
      refine (hsend hbuf).mpr fun i hi hreach => ?_
      obtain ⟨hi, hdvd⟩ := visits_table.mp hi
      exact h htype num vecValue startAddr (giBuffer_iff.mp ⟨buf, hbuf⟩) hnum hvec hstart i hi hdvd
        hreach
    · rw [if_neg htype]
      exact Watched.all_pure _

/-! ### On a store -/

section Store

open DataStorage (ValueWrap Store transValue visited IsInt)

/-- The plug-in over a data centre whose store is known at every moment. -/
def onStore (env : Env R (ValueWrap R)) (data : DataStorage.Env R) (store : List Ev → Store R) :
    Env R (ValueWrap R) :=
  { env with
    cfg := data.cfg
    getTransMultiValue := fun log name type transId num =>
      Prod.snd <$> (exec (DataStorage.getTransMultiValue data name type transId num [])
        (store log)).1 }

/-- The values of `num` signals as they are delivered: those of the transmit points 0, 1, 3, 6
and so on, up to the first without one. -/
structure Delivers (data : DataStorage.Env R) (name : String) (store : Store R) (num : ℕ)
    (vecValue : List (ValueWrap R)) : Prop where
  le : vecValue.length ≤ num
  ids : ∀ k < num, k ≤ vecValue.length → IsInt (visited 0 k)
  found : ∀ k (hk : k < vecValue.length),
    transValue data name .signal store (visited 0 k) = .ok (some vecValue[k])
  stop : vecValue.length < num →
    transValue data name .signal store (visited 0 vecValue.length) = .ok none

lemma getTransMultiValue_onStore {env : Env R (ValueWrap R)} {data : DataStorage.Env R}
    {store : List Ev → Store R} {log : List Ev} {name : String} {num : ℕ}
    {vecValue : List (ValueWrap R)} :
    (onStore env data store).getTransMultiValue log name .signal 0 num = .ok vecValue ↔
      Delivers data name (store log) num vecValue := by
  have hsignal : (DataStorage.typeName .signal).isSome := rfl
  have hmulti := DataStorage.getTransMultiValue_some data hsignal name 0 num [] (store log)
  have hmap {x : Except Fault (Bool × List (ValueWrap R))} :
      Prod.snd <$> x = .ok vecValue ↔ ∃ all, x = .ok (all, vecValue) := by
    rcases x with e | ⟨all, vec⟩ <;> simp [Functor.map, Except.map]
  show Prod.snd <$> (exec (DataStorage.getTransMultiValue data name .signal 0 num [])
    (store log)).1 = .ok vecValue ↔ _
  rw [hmulti, Int.toNat_natCast, hmap, DataStorage.visits_eq_ok]
  simp only [List.nil_append, exists_eq_left', DataStorage.visitedFrom_zero]
  exact ⟨fun ⟨hle, hids, hfound, hstop⟩ => ⟨hle, hids, hfound, hstop⟩,
    fun h => ⟨h.le, h.ids, h.found, h.stop⟩⟩

/-- **The values indexed** by the two senders are those that were delivered, if and only if, of
the point numbers the loops visit, the call comes to none past the last value: every look-up
finds one, or something else has ended the call before. -/
theorem values_inside_iff (env : Env R (ValueWrap R)) (data : DataStorage.Env R)
    (store : List Ev → Store R) (type : MonitorType) (strType : String) (s : Plug) :
    (Watched.All Access.Inside (sendGIYx (onStore env data store) type strType) s ↔
      ∀ num vecValue startAddr,
        (∃ addr, cfgInt (onStore env data store) "commAddr" = .ok addr) →
        pointNum (onStore env data store) "signal" = .ok num →
        Delivers data env.name (store s.log) num vecValue →
        cfgInt (onStore env data store) "yxStart" = .ok startAddr →
        ¬ ∃ i, vecValue.length ≤ i ∧ i < num ∧
          Reaches vecValue (fun v => ∃ c, env.asUInt8 v = .ok c) (AddrIsInt startAddr)
            (Printed (onStore env data store)) 1 0 i) ∧
    (Watched.All Access.Inside (sendGIYc (onStore env data store) type strType) s ↔
      (type.isMeasure → ∀ num vecValue startAddr,
        (∃ addr, cfgInt (onStore env data store) "commAddr" = .ok addr) →
        pointNum (onStore env data store) "measure" = .ok num →
        Delivers data env.name (store s.log) num vecValue →
        cfgInt (onStore env data store) "ycStart" = .ok startAddr →
        ¬ ∃ i, vecValue.length ≤ i ∧ i < num ∧ type.width ∣ i % sqMaxNum ∧
          Reaches vecValue (fun v => ∃ e, measured env type v = .ok e) (AddrIsInt startAddr)
            (Printed (onStore env data store)) type.width 0 i)) := by
  have hcontra {len : ℕ} {P : ℕ → Prop} : (∀ i, P i → i < len) ↔ ¬ ∃ i, len ≤ i ∧ P i :=
    ⟨fun h ⟨i, hle, hp⟩ => absurd (h i hp) (Nat.not_lt.mpr hle),
      fun h i hp => Nat.lt_of_not_le fun hle => h ⟨i, hle, hp⟩⟩
  constructor
  · rw [all_sendGIYx]
    refine forall₃_congr fun num vecValue startAddr => ?_
    rw [getTransMultiValue_onStore]
    refine imp_congr_right fun _ => imp_congr_right fun _ => imp_congr_right fun _ =>
      imp_congr_right fun _ => ?_
    rw [← hcontra]
    exact forall_congr' fun i => and_imp.symm
  · rw [all_sendGIYc]
    refine imp_congr_right fun _ => forall₃_congr fun num vecValue startAddr => ?_
    rw [getTransMultiValue_onStore]
    refine imp_congr_right fun _ => imp_congr_right fun _ => imp_congr_right fun _ =>
      imp_congr_right fun _ => ?_
    rw [← hcontra]
    refine forall_congr' fun i => ?_
    rw [and_imp, and_imp]
    rfl

/-- A plug-in `T` with its own ways to read a value. -/
def wrapEnv : Env ℚ (ValueWrap ℚ) where
  cfg := ConfigParse.empty
  name := "T"
  getTransMultiValue := fun _ _ _ _ _ => .ok []
  asUInt8 := fun _ => .ok 0
  floatOctets := fun _ => .ok fun _ => 0
  shortOctets := fun _ => .ok fun _ => 0
  getSysTime := fun _ => ⟨0, 0, 0, 0, 0, 0, 0, 0⟩
  longShift := fun _ _ => 0

/-- Of a table of three signals, all with values, two are delivered and three indexed. -/
theorem third_value_outside : ¬ Watched.All Access.Inside
    (sendGIYx (onStore wrapEnv DataStorage.threeTrans fun _ => DataStorage.threePoints) .mSpNa1
      "总招单点遥信") Plug.init := by
  intro h
  have htrace : ((sendGIYx (onStore wrapEnv DataStorage.threeTrans fun _ =>
      DataStorage.threePoints) .mSpNa1 "总招单点遥信").trace Plug.init).map
      (fun a => (a.index, a.size)) = [(0, 2), (1, 2), (2, 2)] := by
    decide +kernel
  have hmem : (2, 2) ∈ ((sendGIYx (onStore wrapEnv DataStorage.threeTrans fun _ =>
      DataStorage.threePoints) .mSpNa1 "总招单点遥信").trace Plug.init).map
      (fun a => (a.index, a.size)) := by
    rw [htrace]
    simp
  obtain ⟨a, ha, heq⟩ := List.mem_map.mp hmem
  have hlt : a.index < a.size := h a ha
  obtain ⟨h1, h2⟩ := Prod.mk.inj heq
  omega

end Store

end DataEngine.TransIEC104.Values
