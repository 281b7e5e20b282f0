import DataEngine.Plug.IEC104.Interrogation
import DataEngine.Plug.IEC104.Stream

/-!
Cutting what the plug-in sends into frames again.

Every frame that is sent is made by one of a few builders. The short frames, the segments of
signals and the confirmation of a clock command announce their length; a frame that is echoed
does if the received one did; a segment of measurements does only while its size fits the
length octet.
-/

namespace DataEngine.TransIEC104

open ConfigParse Lib.Effect

/-! ### Frames and cuts -/

/-- A frame a peer can cut: the start octet, its length, and no more than 255 octets. -/
def Framed (f : Frame) : Prop :=
  f.getD 0 0 = 0x68 ∧ f.length = (f.getD 1 0).toNat + 2 ∧ f.length ≤ 255

instance (f : Frame) : Decidable (Framed f) := inferInstanceAs (Decidable (_ ∧ _))

/-- `fixFrame` with an unsigned length octet cuts the octets into these frames. -/
inductive Cuts : List UInt8 → List Frame → Prop where
  | nil : Cuts [] []
  | cons {buf : List UInt8} {n : ℤ} {frames : List Frame}
      (h : verdict .aarch64 buf = (.complete, n)) (rest : Cuts (buf.drop (toSize n)) frames) :
      Cuts buf (buf.take (toSize n) :: frames)

lemma verdict_of_framed {f : Frame} (h : Framed f) (rest : List UInt8) :
    verdict .aarch64 (f ++ rest) = (.complete, (f.length : ℤ)) := by
  obtain ⟨h0, hlen, -⟩ := h
  have hget (i : ℕ) (hi : i < 2) : (f ++ rest).getD i 0 = f.getD i 0 :=
    List.getD_append _ _ _ _ (by omega)
  refine verdict_complete.mpr ⟨?_, ?_, ?_, ?_⟩
  · rw [hget 0 (by omega), h0]
  · rw [List.length_append]
    omega
  · rw [hget 1 (by omega), Build.charVal, hlen]
    push_cast
    rfl
  · rw [List.length_append]
    omega

lemma cuts_flatten {frames : List Frame} (h : ∀ f ∈ frames, Framed f) :
    Cuts frames.flatten frames := by
  induction frames with
  | nil => exact .nil
  | cons f frames ih =>
    have hf := h f (by simp)
    have hsize : toSize (f.length : ℤ) = f.length := by
      have := hf.2.2
      rw [toSize_eq (by omega) (by omega), Int.toNat_natCast]
    have hrest : Cuts ((f ++ frames.flatten).drop (toSize f.length)) frames := by
      rw [hsize, List.drop_left]
      exact ih fun g hg => h g (by simp [hg])
    have hcut := Cuts.cons (verdict_of_framed hf frames.flatten) hrest
    rwa [hsize, List.take_left] at hcut

/-- The frames can be cut from one another by their peer. -/
def Reframes (frames : List Frame) : Prop :=
  (∀ f ∈ frames, Framed f) ∧ Cuts frames.flatten frames

lemma reframes_iff {frames : List Frame} : Reframes frames ↔ ∀ f ∈ frames, Framed f :=
  ⟨fun h => h.1, fun h => ⟨h, cuts_flatten h⟩⟩

def Ev.sentOn (fd : ℤ) : Ev → Option Frame
  | .sent fd' f => if fd' = fd then some f else none
  | _ => none

/-- The frames sent on a connection. -/
def framesSent (fd : ℤ) (log : List Ev) : List Frame := log.filterMap (Ev.sentOn fd)

lemma mem_framesSent {fd : ℤ} {log : List Ev} {f : Frame} :
    f ∈ framesSent fd log ↔ .sent fd f ∈ log := by
  unfold framesSent
  rw [List.mem_filterMap]
  constructor
  · rintro ⟨e, he, hf⟩
    cases e with
    | sent fd' g =>
      simp only [Ev.sentOn] at hf
      split_ifs at hf with hfd
      obtain rfl : g = f := by simpa using hf
      rwa [hfd] at he
    | _ => simp [Ev.sentOn] at hf
  · intro h
    exact ⟨_, h, by simp [Ev.sentOn]⟩

/-! ### What is added to the log -/

/-- From `s` to `t` events that meet `P` are added to the log. -/
def Adds (P : Ev → Prop) (_ : ℕ) (s t : Plug) : Prop :=
  ∃ evs, t.log = s.log ++ evs ∧ ∀ e ∈ evs, P e

instance (P : Ev → Prop) : Graded (Adds P) where
  refl s := ⟨[], by simp, by simp⟩
  trans := by
    rintro a b s t u ⟨e₁, h₁, hp₁⟩ ⟨e₂, h₂, hp₂⟩
    refine ⟨e₁ ++ e₂, by rw [h₂, h₁, List.append_assoc], fun e he => ?_⟩
    exact (List.mem_append.mp he).elim (hp₁ e) (hp₂ e)
  mono := fun _ h => h

section Adds

variable {R V : Type} [Double R] {env : Env R V} {P : Ev → Prop}

lemma sendFrame_adds {f : Frame} {s : Plug} (h : ∀ fd, P (.sent fd f)) :
    Moves (Adds P) 0 (sendFrame f) s := by
  unfold Moves
  rw [exec_sendFrame]
  exact ⟨[.sent s.fd f], rfl, by simpa using h s.fd⟩

lemma engineSendFrame_adds {f : Frame} {s : Plug} (h : ∀ fd, P (.sent fd f)) :
    Moves (Adds P) 0 (engineSendFrame f) s :=
  ⟨[.sent s.fd f], rfl, by simpa using h s.fd⟩

lemma print_then_adds {α : Type} {strType : String} {f : Frame} {m : PlugM α} {s : Plug}
    (h : Moves (Adds P) 0 m s) : Moves (Adds P) 0 (do printFrame env strType f; m) s :=
  Moves.after (printFrame_idle env strType f) fun _ _ => h

lemma sendSegments_adds {strType : String}
    {segment : Plug → ℕ → ℕ → Frame → Except Fault Frame} {n k num m : ℕ} (hm : num ≤ m)
    (hseg : ∀ s k r buf f, segment s k r buf = .ok f → r ≤ min sqMaxNum m → ∀ fd, P (.sent fd f))
    (buf : Frame) (s : Plug) :
    Moves (Adds P) 0 (sendSegments env strType segment n k num buf) s := by
  have hsend {k num : ℕ} {buf f : Frame} {s : Plug} (hm : num ≤ m)
      (hf : segment s k (min sqMaxNum num) buf = .ok f) : Moves (Adds P) 0 (sendFrame f) s :=
    sendFrame_adds (hseg _ _ _ _ _ hf (by omega))
  induction n generalizing k num buf s with
  | zero => exact sendSegments_step (b := 0) (fun f hf => hsend hm hf) fun f t => Moves.pure _
  | succ n ih =>
    refine sendSegments_step (b := 0) (fun f hf => hsend hm hf) fun f t => ?_
    unfold sendRest
    by_cases hmore : sqMaxNum < num
    · simp only [if_pos hmore]
      exact ih (by omega) f t
    · simp only [if_neg hmore]
      exact Moves.pure _

end Adds

/-! ### How a frame that is sent is made -/

/-- The octets of a measurement of a type that is sent. -/
def ycWidth (ycType : ℤ) : Option ℕ :=
  if ycType = 0 then some 5
  else if ycType = 1 then some 2
  else if ycType = 2 ∨ ycType = 3 then some 3
  else none

variable {R V : Type} [Double R]

/-- What the plug-in sends in answer to the frame `f`. -/
inductive Made (env : Env R V) (f : Frame) : Frame → Prop where
  | short {g : Frame} (length : g.length = 6) (start : g.getD 0 0 = 0x68)
      (apduLen : g.getD 1 0 = 4) : Made env f g
  | echo {g : Frame} (hf : isGI f) {cause : UInt8} {s : Plug} (h : giFrame cause s f = .ok g) :
      Made env f g
  | signals {g : Frame} (hf : isGI f) {startAddr : ℤ} {k r : ℕ} (h : Segment startAddr k r 1 g)
      (hr : r ≤ sqMaxNum) : Made env f g
  | measures {g : Frame} (hf : isGI f) {ycType : ℤ} {num width : ℕ}
      (htype : cfgInt env "ycType" = .ok ycType) (hwidth : ycWidth ycType = some width)
      (hnum : pointNum env "measure" = .ok num) {startAddr : ℤ} {k r : ℕ}
      (h : Segment startAddr k r width g) (hr : r ≤ min sqMaxNum num) : Made env f g
  | clock {g : Frame} (hf : isClock f) {s : Plug} {time : SysTime}
      (h : clockFrame env s f = .ok (g, time)) : Made env f g

variable (env : Env R V)

/-- The frames among the events are made for `f`. -/
def MadeFor (f : Frame) : Ev → Prop
  | .sent _ g => Made env f g
  | _ => True

variable {env} {f : Frame}

variable (env f) in
lemma sendSFrame_made (s : Plug) : Moves (Adds (MadeFor env f)) 0 (sendSFrame env) s := by
  unfold sendSFrame
  refine Moves.after get_idle fun s' hs => ?_
  exact print_then_adds (engineSendFrame_adds fun _ => .short rfl rfl rfl)

lemma analyseUFrame_made (s : Plug) : Moves (Adds (MadeFor env f)) 0 (analyseUFrame env f) s := by
  unfold analyseUFrame
  refine Moves.after (of_idle _) fun ctrl _ => print_then_adds ?_
  rcases hu : (uAnswer ctrl).2 with _ | ⟨strType1, response⟩
  · exact Moves.pure _
  · simp only
    refine print_then_adds (engineSendFrame_adds fun _ => ?_)
    unfold uAnswer at hu
    split_ifs at hu <;> simp only [Option.some.injEq, Prod.mk.injEq] at hu
    all_goals
      obtain ⟨-, rfl⟩ := hu
      exact .short rfl rfl rfl

lemma sendGIYx_made (hf : isGI f) (type : MonitorType) (strType : String) (s : Plug) :
    Moves (Adds (MadeFor env f)) 0 (sendGIYx env type strType) s := by
  refine sendGIYx_of_segments fun vec addr num buf _ _ => ?_
  refine sendSegments_adds (le_refl num) (fun s k r buf g hg hr fd => ?_) buf s
  exact .signals hf (yxSegment_eq_ok hg).1 (hr.trans (Nat.min_le_left _ _))

lemma sendGIYc_made (hf : isGI f) {ycType : ℤ} (htype : cfgInt env "ycType" = .ok ycType)
    {type : MonitorType} (hwidth : ycWidth ycType = some type.width) (strType : String) (s : Plug) :
    Moves (Adds (MadeFor env f)) 0 (sendGIYc env type strType) s := by
  refine sendGIYc_of_segments fun vec addr num buf byteNum qualityNum hnum _ hw => ?_
  refine sendSegments_adds (le_refl num) (fun s k r buf g hg hr fd => ?_) buf s
  exact .measures hf htype hwidth hnum (hw ▸ ycSegment_eq_ok hg) hr

variable (env) in
lemma sendGIConfim_made (hf : isGI f) (s : Plug) :
    Moves (Adds (MadeFor env f)) 0 (sendGIConfim env f) s := by
  unfold sendGIConfim
  refine Moves.after get_idle fun s' _ => Moves.after (of_idle _) fun g hg => ?_
  exact print_then_adds (sendFrame_adds fun _ => .echo hf (ok_of_exec_of hg))

variable (env) in
lemma sendGIFinish_made (hf : isGI f) (s : Plug) :
    Moves (Adds (MadeFor env f)) 0 (sendGIFinish env f) s := by
  unfold sendGIFinish
  refine Moves.after get_idle fun s' _ => Moves.after (of_idle _) fun g hg => ?_
  exact print_then_adds (sendFrame_adds fun _ => .echo hf (ok_of_exec_of hg))

variable (env) in
lemma sendYx_made (hf : isGI f) (yxType : ℤ) (s : Plug) :
    Moves (Adds (MadeFor env f)) 0 (sendYx env yxType) s := by
  unfold sendYx
  split_ifs
  · exact sendGIYx_made hf _ _ s
  · exact sendGIYx_made hf _ _ s
  · exact Moves.pure _

lemma sendYc_made (hf : isGI f) {ycType : ℤ} (htype : cfgInt env "ycType" = .ok ycType)
    (s : Plug) : Moves (Adds (MadeFor env f)) 0 (sendYc env ycType) s := by
  unfold sendYc
  split_ifs with h0 h1 h2 h3
  · exact sendGIYc_made hf htype (by simp [ycWidth, h0, MonitorType.width]) _ s
  · exact sendGIYc_made hf htype (by simp [ycWidth, h1, MonitorType.width]) _ s
  · exact sendGIYc_made hf htype (by simp [ycWidth, h2, MonitorType.width]) _ s
  · exact sendGIYc_made hf htype (by simp [ycWidth, h3, MonitorType.width]) _ s
  · exact Moves.pure _

variable (env) in
lemma processCIcNa1_made (hf : isGI f) (s : Plug) :
    Moves (Adds (MadeFor env f)) 0 (processCIcNa1 env f) s := by
  unfold processCIcNa1
  refine print_then_adds (Moves.bind (b := 0) (sendGIConfim_made env hf s) fun _ t _ => ?_)
  refine Moves.after (of_idle _) fun yxType _ => Moves.after (of_idle _) fun ycType hyc => ?_
  refine Moves.bind (b := 0) (sendYx_made env hf yxType t) fun _ u _ => ?_
  refine Moves.bind (b := 0) (sendYc_made hf (ok_of_exec_of hyc) u) fun _ v _ => ?_
  exact sendGIFinish_made env hf v

variable (env) in
lemma processCCsNa1_made (hf : isClock f) (s : Plug) :
    Moves (Adds (MadeFor env f)) 0 (processCCsNa1 env f) s := by
  unfold processCCsNa1
  refine Moves.after get_idle fun s' _ => Moves.after (of_idle _) fun out hout => ?_
  obtain ⟨g, time⟩ := out
  have htime : Moves (Adds (MadeFor env f)) 0 (modify fun s : Plug =>
      { s with log := s.log ++ [.setSysTime time] } : PlugM PUnit) s :=
    ⟨[.setSysTime time], rfl, by simp [MadeFor]⟩
  refine Moves.bind (b := 0) htime fun _ t _ => print_then_adds ?_
  exact engineSendFrame_adds fun _ => .clock hf (ok_of_exec_of hout)

lemma analyseIFrame_made (hi : isI f) (s : Plug) :
    Moves (Adds (MadeFor env f)) 0 (analyseIFrame env f) s := by
  unfold analyseIFrame
  refine Moves.after (of_idle _) fun type htype => ?_
  obtain ⟨-, rfl⟩ := peek_eq_ok (ok_of_exec_of htype)
  refine Moves.bind (a := 0) (b := 0) ?_ fun _ t _ => sendSFrame_made env f t
  unfold processI
  by_cases hgi : f.getD 6 0 = cIcNa1
  · rw [if_pos hgi]
    exact processCIcNa1_made env (by simp only [isGI, hi, hgi, decide_true, Bool.and_true]) s
  rw [if_neg hgi]
  by_cases hclock : f.getD 6 0 = cCsNa1
  · rw [if_pos hclock]
    exact processCCsNa1_made env (by simp only [isClock, hi, hclock, decide_true, Bool.and_true]) s
  rw [if_neg hclock]
  split_ifs
  · unfold processCScNa1
    refine Moves.after get_idle fun _ _ => Moves.after (of_idle _) fun _ _ => ?_
    exact Moves.after (of_idle _) fun _ _ => Moves.pure _
  · exact Moves.pure _

variable (env f) in
/-- **What is sent for a frame**, whether or not its handler returns. -/
theorem analyseFrame_made (s : Plug) :
    Moves (Adds (MadeFor env f)) 0 (analyseFrame env f) s := by
  have hanalysed : Moves (Adds (MadeFor env f)) 0 (modify fun s : Plug =>
      { s with log := s.log ++ [.analysed s.fd f] } : PlugM PUnit) s :=
    ⟨[.analysed s.fd f], rfl, by simp [MadeFor]⟩
  unfold analyseFrame dispatch
  refine Moves.bind (b := 0) hanalysed fun _ t _ => Moves.after (of_idle _) fun ctrl hctrl => ?_
  obtain ⟨-, rfl⟩ := peek_eq_ok (ok_of_exec_of hctrl)
  split_ifs with hu hi hs
  · exact analyseUFrame_made t
  · have hcount : Moves (Adds (MadeFor env f)) 0 (modify fun s : Plug =>
        { s with recvIdx := (s.recvIdx + 1) % 65536 } : PlugM PUnit) t := ⟨[], by simp, by simp⟩
    refine Moves.bind (b := 0) hcount fun _ u _ => analyseIFrame_made ?_ u
    simp only [isI, hi, decide_true]
  · unfold analyseSFrame
    exact Moves.idle (printFrame_idle env _ f t)
  · exact Moves.pure _

/-! ### Which frames announce their length -/

variable (env f) in
/-- The frame that is handled does not lead to a frame that cannot be cut again. -/
structure Fits : Prop where
  gi : isGI f → Framed f
  measures : isGI f → ∀ ycType width num, cfgInt env "ycType" = .ok ycType →
    ycWidth ycType = some width → pointNum env "measure" = .ok num →
    min sqMaxNum num * width ≤ 240
  clock : isClock f → f.length = (f.getD 1 0).toNat + 2 ∧ f.length ≤ 255

lemma giFrame_keeps {cause : UInt8} {s : Plug} {g : Frame} (h : giFrame cause s f = .ok g) :
    g.length = f.length ∧ g.getD 0 0 = f.getD 0 0 ∧ g.getD 1 0 = f.getD 1 0 := by
  have hne (j : ℕ) (hj : j < 2) : g.getD j 0 = f.getD j 0 := by
    refine pokes_getD_of_ne h fun w hw => ?_
    simp only [sendField, recvField, List.cons_append, List.nil_append, List.mem_cons,
      List.not_mem_nil, or_false] at hw
    rcases hw with rfl | rfl | rfl | rfl | rfl | rfl <;> omega
  exact ⟨pokes_length h, hne 0 (by omega), hne 1 (by omega)⟩

lemma framed_giFrame {cause : UInt8} {s : Plug} {g : Frame} (h : giFrame cause s f = .ok g) :
    Framed g ↔ Framed f := by
  obtain ⟨hlen, h0, h1⟩ := giFrame_keeps h
  unfold Framed
  rw [hlen, h0, h1]

omit [Double R] in
lemma framed_clockFrame {s : Plug} {g : Frame} {time : SysTime}
    (h : clockFrame env s f = .ok (g, time)) :
    Framed g ↔ f.length = (f.getD 1 0).toNat + 2 ∧ f.length ≤ 255 := by
  obtain ⟨len, hlen, h⟩ := bind_eq_ok.mp h
  obtain ⟨b, hb, h⟩ := bind_eq_ok.mp h
  obtain ⟨c, hc, h⟩ := bind_eq_ok.mp h
  iterate 7 obtain ⟨_, -, h⟩ := bind_eq_ok.mp h
  obtain ⟨rfl, -⟩ : c = g ∧ _ := by simpa using h
  obtain ⟨-, rfl⟩ := peek_eq_ok hlen
  obtain ⟨h0, h1⟩ := setAPCI_start hb
  have hkeep (j : ℕ) (hj : j < 2) : c.getD j 0 = b.getD j 0 := by
    refine pokes_getD_of_ne hc fun w hw => ?_
    simp only [List.mem_cons, List.not_mem_nil, or_false] at hw
    rcases hw with rfl | rfl <;> omega
  have hoctet : (octet (f.getD 1 0).toNat 0).toNat = (f.getD 1 0).toNat := by
    have hlt : (f.getD 1 0).toNat < 256 := UInt8.toNat_lt _
    rw [octet_toNat]
    omega
  unfold Framed
  rw [pokes_length hc, setAPCI_length hb, hkeep 0 (by omega), hkeep 1 (by omega), h0, h1, hoctet]
  simp

lemma Segment.framed {startAddr : ℤ} {k r width : ℕ} {g : Frame}
    (h : Segment startAddr k r width g) : Framed g ↔ r * width ≤ 240 := by
  unfold Framed
  rw [h.start, h.apduLen, octet_toNat, h.length]
  simp only [true_and]
  omega

/-- Under the condition, everything that is made is framed. -/
lemma Made.framed {g : Frame} (h : Made env f g) (hf : Fits env f) : Framed g := by
  cases h with
  | short length start apduLen => exact ⟨start, by rw [length, apduLen]; rfl, by omega⟩
  | echo hgi h => exact (framed_giFrame h).mpr (hf.gi hgi)
  | signals hgi h hr =>
    have hr : _ ≤ 127 := hr
    exact h.framed.mpr (by omega)
  | measures hgi htype hwidth hnum h hr =>
    exact h.framed.mpr ((Nat.mul_le_mul_right _ hr).trans (hf.measures hgi _ _ _ htype hwidth hnum))
  | clock hclock h => exact (framed_clockFrame h).mpr (hf.clock hclock)

/-! ### What is sent by a handler that returns -/

/-- What the log of `t` has that the log of `s` has not. -/
def added (s t : Plug) : List Ev := t.log.drop s.log.length

lemma added_eq {s t : Plug} {evs : List Ev} (h : t.log = s.log ++ evs) : added s t = evs := by
  rw [added, h, List.drop_left]

lemma Adds.grows {P : Ev → Prop} {n : ℕ} {s t : Plug} (h : Adds P n s t) : s.log <+: t.log := by
  obtain ⟨evs, hlog, -⟩ := h
  exact ⟨evs, hlog.symm⟩

lemma mem_added {s t u v : Plug} (h₁ : s.log <+: t.log) (h₂ : t.log <+: u.log)
    (h₃ : u.log <+: v.log) {e : Ev} (he : e ∈ added t u) : e ∈ added s v := by
  obtain ⟨a, ha⟩ := h₁
  obtain ⟨b, hb⟩ := h₂
  obtain ⟨c, hc⟩ := h₃
  rw [added_eq hb.symm] at he
  have hall : v.log = s.log ++ (a ++ b ++ c) := by
    rw [← hc, ← hb, ← ha]
    simp
  rw [added_eq hall]
  simp [he]

lemma Segmented.head {Q : ℕ → ℕ → Frame → Prop} {k num : ℕ} {frames : List Frame}
    (h : Segmented Q k num frames) : ∃ g ∈ frames, Q k (min sqMaxNum num) g := by
  cases h with
  | @last _ _ g hnum hf => exact ⟨g, by simp, by rwa [min_eq_right hnum]⟩
  | @more _ _ g _ hnum hf rest => exact ⟨g, by simp, by rwa [min_eq_left hnum.le]⟩

lemma sendGIConfim_sends {s t : Plug} (h : exec (sendGIConfim env f) s = (.ok ⟨⟩, t)) :
    ∃ g, giFrame actCon s f = .ok g ∧ .sent s.fd g ∈ added s t := by
  unfold sendGIConfim at h
  rw [exec_get_bind] at h
  obtain ⟨g, hg, h⟩ := exec_of_bind_eq_ok.mp h
  have h := of_print_eq_ok h
  rw [exec_sendFrame] at h
  obtain rfl : s.sends g = t := (Prod.mk.inj h).2
  have hlog : (s.sends g).log = s.log ++ [.sent s.fd g] := rfl
  exact ⟨g, hg, by simp [added_eq hlog]⟩

/-- The first segment of the measurements is as long as any. -/
lemma sendGIYc_sends {type : MonitorType} (htype : type ≠ .mSpNa1 ∧ type ≠ .mDpNa1)
    {strType : String} {s t : Plug} (h : exec (sendGIYc env type strType) s = (.ok ⟨⟩, t)) {num : ℕ}
    (hnum : pointNum env "measure" = .ok num) (hpos : 0 < num) :
    ∃ startAddr g, Segment startAddr 0 (min sqMaxNum num) type.width g ∧
      .sent s.fd g ∈ added s t := by
  unfold sendGIYc at h
  obtain ⟨buf, -, h⟩ := exec_of_bind_eq_ok.mp h
  rw [exec_of_bind, hnum] at h
  simp only [if_neg hpos.ne'] at h
  rw [exec_get_bind] at h
  obtain ⟨vec, -, h⟩ := exec_of_bind_eq_ok.mp h
  obtain ⟨startAddr, -, h⟩ := exec_of_bind_eq_ok.mp h
  have hsegments (byteNum qualityNum : ℕ) (hw : byteNum + qualityNum = type.width)
      (h : exec (sendSegments env strType (ycSegment env type vec startAddr byteNum qualityNum)
        (num / sqMaxNum) 0 num buf) s = (.ok ⟨⟩, t)) :
      ∃ startAddr g, Segment startAddr 0 (min sqMaxNum num) type.width g ∧
        .sent s.fd g ∈ added s t := by
    have hseg (s : Plug) (k r : ℕ) (buf g : Frame)
        (hg : ycSegment env type vec startAddr byteNum qualityNum s k r buf = .ok g) :
        Segment startAddr k r type.width g := hw ▸ ycSegment_eq_ok hg
    obtain ⟨frames, hlog, hcut⟩ := segmented_of_sendSegments hseg (num_le_segments _) h
    obtain ⟨g, hg, hfirst⟩ := hcut.head
    exact ⟨startAddr, g, hfirst, by simpa [added_eq hlog] using hg⟩
  cases type
  case mMeNc1 | mMeNd1 | mMeNa1 | mMeNb1 => exact hsegments _ _ rfl h
  case mSpNa1 => exact absurd rfl htype.1
  case mDpNa1 => exact absurd rfl htype.2

/-- What the events of an interrogation that returns hold: its confirmation, and a segment of
measurements of the greatest size. -/
lemma processCIcNa1_sends (hgi : isGI f) {s t : Plug}
    (h : exec (processCIcNa1 env f) s = (.ok ⟨⟩, t)) :
    (∃ u fd g, giFrame actCon u f = .ok g ∧ .sent fd g ∈ added s t) ∧
      ∀ ycType width num, cfgInt env "ycType" = .ok ycType → ycWidth ycType = some width →
        pointNum env "measure" = .ok num → 0 < num →
        ∃ startAddr fd g, Segment startAddr 0 (min sqMaxNum num) width g ∧
          .sent fd g ∈ added s t := by
  unfold processCIcNa1 at h
  have h := of_print_eq_ok h
  obtain ⟨⟨⟩, s₁, hcon, h⟩ := exec_bind_eq_ok.mp h
  obtain ⟨yxType, -, h⟩ := exec_of_bind_eq_ok.mp h
  obtain ⟨ycType, hyc, h⟩ := exec_of_bind_eq_ok.mp h
  obtain ⟨⟨⟩, s₂, hsendYx, h⟩ := exec_bind_eq_ok.mp h
  obtain ⟨⟨⟩, s₃, hsendYc, hend⟩ := exec_bind_eq_ok.mp h
  -- the log only grows along the way
  have g₁ : s.log <+: s₁.log := by
    have := (sendGIConfim_made env hgi s).grows
    rwa [hcon] at this
  have g₂ : s₁.log <+: s₂.log := by
    have := (sendYx_made env hgi yxType s₁).grows
    rwa [hsendYx] at this
  have g₃ : s₂.log <+: s₃.log := by
    have := (sendYc_made hgi hyc s₂).grows
    rwa [hsendYc] at this
  have g₄ : s₃.log <+: t.log := by
    have := (sendGIFinish_made env hgi s₃).grows
    rwa [hend] at this
  constructor
  · obtain ⟨g, hg, hmem⟩ := sendGIConfim_sends hcon
    exact ⟨s, s.fd, g, hg, mem_added (List.prefix_refl _) g₁ (g₂.trans (g₃.trans g₄)) hmem⟩
  · intro ycType' width num hyc' hwidth hnum hpos
    obtain rfl : ycType = ycType' := Except.ok.inj (hyc.symm.trans hyc')
    have hfirst (type : MonitorType) (htype : type ≠ .mSpNa1 ∧ type ≠ .mDpNa1) {strType : String}
        (hw : type.width = width) (hsend : sendYc env ycType = sendGIYc env type strType) :
        ∃ startAddr fd g, Segment startAddr 0 (min sqMaxNum num) width g ∧
          .sent fd g ∈ added s t := by
      rw [hsend] at hsendYc
      obtain ⟨startAddr, g, hg, hmem⟩ := sendGIYc_sends htype hsendYc hnum hpos
      exact ⟨startAddr, s₂.fd, g, hw ▸ hg, mem_added (g₁.trans g₂) g₃ g₄ hmem⟩
    unfold ycWidth at hwidth
    split_ifs at hwidth with h0 h1 h23
    · obtain rfl : 5 = width := by simpa using hwidth
      exact hfirst .mMeNc1 (by decide) rfl (by rw [sendYc, if_pos h0])
    · obtain rfl : 2 = width := by simpa using hwidth
      exact hfirst .mMeNd1 (by decide) rfl (by rw [sendYc, if_neg h0, if_pos h1])
    · obtain rfl : 3 = width := by simpa using hwidth
      rcases h23 with h2 | h3
      · exact hfirst .mMeNa1 (by decide) rfl
          (by rw [sendYc, if_neg h0, if_neg h1, if_pos h2])
      · exact hfirst .mMeNb1 (by decide) rfl
          (by rw [sendYc, if_neg h0, if_neg h1, if_neg (by omega), if_pos h3])

lemma processCCsNa1_sends {s t : Plug} (h : exec (processCCsNa1 env f) s = (.ok ⟨⟩, t)) :
    ∃ u fd g time, clockFrame env u f = .ok (g, time) ∧ .sent fd g ∈ added s t := by
  unfold processCCsNa1 at h
  rw [exec_get_bind] at h
  obtain ⟨⟨g, time⟩, hout, h⟩ := exec_of_bind_eq_ok.mp h
  simp only [exec_modify_bind] at h
  have h := of_print_eq_ok h
  obtain rfl := (Prod.mk.inj h).2
  refine ⟨s, s.fd, g, time, hout, ?_⟩
  rw [added_eq (List.append_assoc s.log _ _)]
  simp

/-- An I-format frame that is handled is handed to its command. -/
lemma processI_of_analysed {s t : Plug} (hi : isI f)
    (h : exec (analyseFrame env f) s = (.ok ⟨⟩, t)) :
    ∃ u v, s.log <+: u.log ∧ exec (processI env (f.getD 6 0) f) u = (.ok ⟨⟩, v) ∧
      v.log <+: t.log := by
  have hU := not_isU_of_isI hi
  unfold analyseFrame dispatch at h
  rw [exec_modify_bind] at h
  obtain ⟨ctrl, hctrl, h⟩ := exec_of_bind_eq_ok.mp h
  obtain ⟨-, rfl⟩ := peek_eq_ok hctrl
  rw [if_neg (by simpa [isU] using hU), if_pos (by simpa [isI] using hi), exec_modify_bind] at h
  unfold analyseIFrame at h
  obtain ⟨type, htype, h⟩ := exec_of_bind_eq_ok.mp h
  obtain ⟨-, rfl⟩ := peek_eq_ok htype
  obtain ⟨⟨⟩, v, hv, h⟩ := exec_bind_eq_ok.mp h
  refine ⟨_, v, ⟨_, rfl⟩, hv, ?_⟩
  have := (sendSFrame_made env f v).grows
  rwa [h] at this

/-- What a handler that returns has sent can be cut only under the condition. -/
lemma fits_of_framed {s t : Plug} (h : exec (analyseFrame env f) s = (.ok ⟨⟩, t))
    (hall : ∀ fd g, .sent fd g ∈ added s t → Framed g) : Fits env f := by
  have hparts (hgi : isGI f) : isI f ∧ f.getD 6 0 = cIcNa1 := by
    simpa [isGI] using hgi
  have hsends (hgi : isGI f) : ∃ u v, s.log <+: u.log ∧ u.log <+: v.log ∧ v.log <+: t.log ∧
      exec (processCIcNa1 env f) u = (.ok ⟨⟩, v) := by
    obtain ⟨hi, h6⟩ := hparts hgi
    obtain ⟨u, v, hu, hrun, hv⟩ := processI_of_analysed hi h
    rw [h6, processI, if_pos rfl] at hrun
    have hgrows := (processCIcNa1_made env hgi u).grows
    rw [hrun] at hgrows
    exact ⟨u, v, hu, hgrows, hv, hrun⟩
  refine ⟨fun hgi => ?_, fun hgi ycType width num htype hwidth hnum => ?_, fun hclock => ?_⟩
  · obtain ⟨u, v, hu, huv, hv, hrun⟩ := hsends hgi
    obtain ⟨⟨w, fd, g, hg, hmem⟩, -⟩ := processCIcNa1_sends hgi hrun
    exact (framed_giFrame hg).mp (hall fd g (mem_added hu huv hv hmem))
  · obtain ⟨u, v, hu, huv, hv, hrun⟩ := hsends hgi
    rcases Nat.eq_zero_or_pos num with rfl | hpos
    · simp
    obtain ⟨-, hsegment⟩ := processCIcNa1_sends hgi hrun
    obtain ⟨startAddr, fd, g, hg, hmem⟩ := hsegment ycType width num htype hwidth hnum hpos
    exact hg.framed.mp (hall fd g (mem_added hu huv hv hmem))
  · obtain ⟨hi, h6⟩ : isI f ∧ f.getD 6 0 = cCsNa1 := by simpa [isClock] using hclock
    obtain ⟨u, v, hu, hrun, hv⟩ := processI_of_analysed hi h
    rw [h6, processI, if_neg (by decide), if_pos rfl] at hrun
    have hgrows := (processCCsNa1_made env hclock u).grows
    rw [hrun] at hgrows
    obtain ⟨w, fd, g, time, hg, hmem⟩ := processCCsNa1_sends hrun
    exact (framed_clockFrame hg).mp (hall fd g (mem_added hu hgrows hv hmem))

/-! ### Runs -/

variable (env) (build : Build)

/-- A move adds to the log nothing, one event of a connection, or what handling a frame adds. -/
lemma step_log (m : Machine) (move : Move) :
    ((step env build m move).plug.log = m.plug.log ∨
      ∃ e fd, (e = .connect fd ∨ e = .disconnect fd) ∧
        (step env build m move).plug.log = m.plug.log ++ [e]) ∨
    ∃ g s, s.log = m.plug.log ∧
      (step env build m move).plug.log = (exec (analyseFrame env g) s).2.log := by
  obtain ⟨s, ctl⟩ := m
  rcases ctl with _ | fd | _
  · rcases move with ⟨_ | _, fd⟩ | ⟨fd, chunk⟩ | _
    · exact .inl (.inr ⟨.connect fd, fd, .inl rfl, rfl⟩)
    · exact .inl (.inr ⟨.disconnect fd, fd, .inr rfl, rfl⟩)
    · exact .inl (.inl rfl)
    · exact .inl (.inl rfl)
  · rcases move with ⟨status, fd'⟩ | ⟨fd', chunk⟩ | _
    · exact .inl (.inl rfl)
    · exact .inl (.inl rfl)
    · simp only [step]
      rcases hv : verdict build (s.mapRecvBuf fd) with ⟨_ | _ | _, n⟩
      · rw [handlePass_invalid env build hv]
        exact .inl (.inl rfl)
      · refine .inr ⟨(s.mapRecvBuf fd).take (toSize n),
          setBuf s fd ((s.mapRecvBuf fd).drop (toSize n)), rfl, ?_⟩
        rcases handlePass_complete env build hv with ⟨h, -⟩ | ⟨h, -⟩ <;> rw [h]
        · rcases ho : handleFrame env fd s (toSize n) with ⟨e | u, t⟩
          all_goals
            have ht : t = (handleFrame env fd s (toSize n)).2 := by
              rw [ho]
            rw [ht]
            rfl
        · rfl
      · rw [handlePass_incomplete env build hv]
        exact .inl (.inl rfl)
  · rcases move with ⟨status, fd'⟩ | ⟨fd', chunk⟩ | _ <;> exact .inl (.inl rfl)

/-- If every frame that is handled meets the condition, every frame that is sent can be cut. -/
lemma framed_run (moves : List Move)
    (h : ∀ fd g, .analysed fd g ∈ (run env build moves).plug.log → Fits env g) (fd : ℤ) (g : Frame)
    (hg : .sent fd g ∈ (run env build moves).plug.log) : Framed g := by
  induction moves using List.reverseRecOn generalizing fd g with
  | nil => simp [Machine.init, Plug.init] at hg
  | append_singleton moves move ih =>
    rw [run_snoc] at h hg
    rcases step_log env build (run env build moves) move with hquiet | ⟨g', s, hs, hlog⟩
    · obtain ⟨evs, hlog, hevs⟩ : ∃ evs, (step env build (run env build moves) move).plug.log =
          (run env build moves).plug.log ++ evs ∧ .sent fd g ∉ evs := by
        rcases hquiet with hq | ⟨e, fd', he, hq⟩
        · exact ⟨[], by simpa using hq, by simp⟩
        · exact ⟨[e], hq, by rcases he with rfl | rfl <;> simp⟩
      rw [hlog] at h hg
      refine ih (fun fd' f hf => h fd' f (List.mem_append_left _ hf)) fd g ?_
      exact (List.mem_append.mp hg).resolve_right hevs
    · obtain ⟨evs, hadd, hmade⟩ := analyseFrame_made env g' s
      obtain ⟨evs', hans⟩ := analyseFrame_handled env g' s
      have hin : .analysed s.fd g' ∈ (exec (analyseFrame env g') s).2.log := by
        rw [hans.answer.log]
        simp [heard]
      rw [hlog] at h hg
      have hfits := h _ _ hin
      rw [hadd, hs] at h hg
      rcases List.mem_append.mp hg with hg | hg
      · exact ih (fun fd' f hf => h fd' f (List.mem_append_left _ hf)) fd g hg
      · exact (hmade _ hg).framed hfits

/-- **What is sent can be framed again** in the runs that handle only frames which meet the
condition, and a frame whose handler returns has to meet it. -/
theorem sent_reframes :
    (∀ (f : Frame) (s t : Plug) (evs : List Ev), exec (analyseFrame env f) s = (.ok ⟨⟩, t) →
      t.log = s.log ++ evs → (Reframes (framesSent s.fd evs) ↔ Fits env f)) ∧
    ∀ (build : Build) (moves : List Move),
      (∀ fd f, .analysed fd f ∈ (run env build moves).plug.log → Fits env f) →
      ∀ fd, Reframes (framesSent fd (run env build moves).plug.log) := by
  constructor
  · intro f s t evs h hlog
    rw [reframes_iff]
    constructor
    · intro hall
      refine fits_of_framed h fun fd g hg => hall g (mem_framesSent.mpr ?_)
      rw [added_eq hlog] at hg
      -- everything that is sent goes to the connection that is handled
      obtain ⟨evs', hans⟩ := analyseFrame_handled env f s
      rw [h] at hans
      have hlog' : t.log = (s.log ++ [.analysed s.fd f]) ++ evs' := hans.answer.log
      rw [hlog, List.append_assoc, List.append_cancel_left_eq] at hlog'
      rw [hlog', List.singleton_append, List.mem_cons] at hg
      rcases hg with hg | hg
      · simp at hg
      · rcases hans.answer.mem hg with ⟨g', he⟩ | ⟨time, he⟩
        · obtain ⟨rfl, rfl⟩ := Ev.sent.inj he
          rw [hlog']
          exact List.mem_cons_of_mem _ hg
        · simp at he
    · intro hfits g hg
      obtain ⟨evs', hadd, hmade⟩ := analyseFrame_made env f s
      rw [h] at hadd
      obtain rfl : evs = evs' := List.append_cancel_left (hlog.symm.trans hadd)
      exact (hmade _ (mem_framesSent.mp hg)).framed hfits
  · intro build moves hall fd
    refine reframes_iff.mpr fun g hg => ?_
    exact framed_run env build moves hall fd g (mem_framesSent.mp hg)

/-- 49 floating-point measurements take 260 octets, and the length octet says 4 of them. -/
theorem long_segment_sent :
    (exec (analyseFrame (tableEnv 0 49 []) giCommand) Plug.init).1.isOk ∧
      ¬ Reframes
        (framesSent 0 (exec (analyseFrame (tableEnv 0 49 []) giCommand) Plug.init).2.log) := by
  rw [reframes_iff]
  decide +kernel

end DataEngine.TransIEC104
