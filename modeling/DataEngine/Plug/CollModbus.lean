import DataEngine.Channel.MsgHandle

/-!
The frames of the Modbus plug-in.

Its fix function takes what is in the buffer for a whole reply, or throws it away if it is
shorter than eight bytes: it never waits for more. So each call of `dealMsg` puts something out,
and a reply is handed over whole only if a single call gets it.
-/

namespace DataEngine.CollModbus

open Channel Channel.MsgHandle Lib.Machine

variable {β : Type} {devName : String}

/-- `CCollModbus::fixFrame`; the valid length stays what `dealMsg` has set it to if the verdict
is `INVALID`. -/
def fixFrame : FixFunc β := fun _ _ len => if len < 8 then (.invalid, 0) else (.complete, len)

/-- What is left of a buffer, and what is put out, if its length is passed as `len`. -/
def dealt (devName : String) (buf : List β) (len : ℤ) : List β × Output β :=
  if len < 8 then ([], .discarded buf)
  else (buf.drop (toSize len), .frame devName (buf.take (toSize len)))

lemma dealt_bytes (devName : String) (buf : List β) (len : ℤ) :
    (dealt devName buf len).2.bytes ++ (dealt devName buf len).1 = buf := by
  unfold dealt
  by_cases h : len < 8
  · rw [if_pos h]
    exact List.append_nil buf
  · rw [if_neg h]
    exact List.take_append_drop _ buf

section

variable {mapFixFunc : Map String (FixFunc β)} {func : FixFunc β} {buf : List β}
  (hfunc : mapFixFunc[devName]? = some func)

include hfunc

lemma dealMsg_of_complete {validLen : ℤ}
    (h : func devName buf (ofSize buf.length) = (.complete, validLen)) :
    Channel.dealMsg mapFixFunc devName buf =
      (buf.drop (toSize validLen), some (.frame devName (buf.take (toSize validLen)))) := by
  simp only [Channel.dealMsg, hfunc, h]

lemma dealMsg_of_invalid {validLen : ℤ}
    (h : func devName buf (ofSize buf.length) = (.invalid, validLen)) :
    Channel.dealMsg mapFixFunc devName buf = ([], some (.discarded buf)) := by
  simp only [Channel.dealMsg, hfunc, h]

end

lemma dealMsg_fixFrame {mapFixFunc : Map String (FixFunc β)}
    (hfix : mapFixFunc[devName]? = some fixFrame) (buf : List β) :
    Channel.dealMsg mapFixFunc devName buf =
      ((dealt devName buf (ofSize buf.length)).1,
        some (dealt devName buf (ofSize buf.length)).2) := by
  obtain ⟨len, hlen⟩ : ∃ len, ofSize buf.length = len := ⟨_, rfl⟩
  by_cases h : len < 8
  · have hinvalid : fixFrame devName buf (ofSize buf.length) = (.invalid, 0) := by
      rw [hlen, fixFrame, if_pos h]
    rw [dealMsg_of_invalid hfix hinvalid, hlen, dealt, if_pos h]
  · have hcomplete : fixFrame devName buf (ofSize buf.length) = (.complete, len) := by
      rw [hlen, fixFrame, if_neg h]
    rw [dealMsg_of_complete hfix hcomplete, hlen, dealt, if_neg h]

lemma ofSize_of_le {n : ℕ} (h : (n : ℤ) ≤ intMax) : ofSize n = n := by
  unfold intMax at h
  exact Int.bmod_eq_of_le (by omega) (by omega)

lemma ofSize_le (n : ℕ) : ofSize n ≤ intMax := by
  have hlt := Int.bmod_lt (x := n) (m := 2 ^ 32) (by norm_num)
  unfold ofSize intMax
  norm_num at hlt ⊢
  omega

lemma toSize_of_nonneg {n : ℤ} (h0 : 0 ≤ n) (h : n ≤ intMax) : (toSize n : ℤ) = n := by
  unfold intMax at h
  unfold toSize
  rw [Int.emod_eq_of_lt h0 (by omega), Int.toNat_of_nonneg h0]

/-- A buffer of eight bytes or more is handed over whole if an `int` holds its length. -/
lemma dealt_whole_iff {buf : List β} (hlen : 8 ≤ buf.length) :
    (dealt devName buf (ofSize buf.length)).2 = .frame devName buf ↔ (buf.length : ℤ) ≤ intMax := by
  constructor
  · intro h
    by_contra hmax
    have hlt := (ofSize_le buf.length).trans_lt (not_le.mp hmax)
    unfold dealt at h
    split_ifs at h with hshort
    -- a length that has wrapped around cuts the buffer short
    have htake : buf.take (toSize (ofSize buf.length)) = buf := by simpa using h
    have hsize := toSize_of_nonneg (by omega) (ofSize_le buf.length)
    have hcut := (List.take_eq_self_iff buf).mp htake
    omega
  · intro hmax
    have hsize := ofSize_of_le hmax
    have hto := toSize_of_nonneg (Int.natCast_nonneg buf.length) hmax
    unfold dealt
    rw [hsize, if_neg (by omega), List.take_of_length_le (by omega)]

/-! ### A reply in pieces -/

/-- The handle waits for a reply of the device. -/
structure Awaits (devName : String) (h : MsgHandle β) : Prop where
  name : h.name = devName
  recvBuf : h.recvBuf = []
  recvBufTmp : h.recvBufTmp = []
  pc : h.pc = .top ∨ h.pc = .named devName

/-- The move serves the device only, with the fix function of this plug-in. -/
def Serves (devName : String) : Move β → Prop
  | .setName name => name = devName ∨ name = ""
  | .dealMsg mapFixFunc => mapFixFunc[devName]? = some fixFrame
  | _ => True

def isDealMsg : Move β → Bool
  | .dealMsg _ => true
  | _ => false

/-- All that has been received has been passed to `dealMsg`. -/
def Passed (h : MsgHandle β) : Prop := h.recvBuf = [] ∧ ∀ name, h.pc ≠ .loaded name

/-- What the moves made have left and put out. -/
structure Dealt (devName : String) (ms : List (Move β)) (h : MsgHandle β)
    (out : List (Output β)) : Prop where
  name : h.name = devName ∨ h.name = ""
  pc : h.pc = .top ∨ h.pc = .named devName ∨ h.pc = .loaded devName
  bytes : received ms = out.flatMap Output.bytes ++ h.recvBufTmp ++ h.recvBuf
  /-- every call of `dealMsg` puts something out -/
  count : out.length = ms.countP isDealMsg
  /-- before the first call nothing is in the local buffer but to be passed to it -/
  fresh : out = [] → (∀ name, h.pc ≠ .loaded name) → h.recvBufTmp = []
  /-- behind the first call there is what it has left, unless there is more to be passed -/
  once : ∀ o, out = [o] → (∀ name, h.pc ≠ .loaded name) →
    ∃ buf, dealt devName buf (ofSize buf.length) = (h.recvBufTmp, o)

lemma Awaits.dealt {h : MsgHandle β} (hh : Awaits devName h) : Dealt devName [] h [] where
  name := .inl hh.name
  pc := hh.pc.imp_right .inl
  bytes := by simp [received, hh.recvBuf, hh.recvBufTmp]
  count := rfl
  fresh := fun _ _ => hh.recvBufTmp
  once := by simp

/-- One move that serves the device. -/
lemma Dealt.step {ms : List (Move β)} {h h' : MsgHandle β} {m : Move β}
    {out p : List (Output β)} (hd : Dealt devName ms h out) (hm : Serves devName m)
    (hstep : MsgHandle.step h m = some (h', p)) : Dealt devName (ms ++ [m]) h' (out ++ p) := by
  have hbytes : received (ms ++ [m]) =
      (out ++ p).flatMap Output.bytes ++ h'.recvBufTmp ++ h'.recvBuf := by
    have := step_bytes hstep
    rw [received_snoc, hd.bytes, List.flatMap_append]
    simp only [List.append_assoc] at this ⊢
    rw [this]
  obtain ⟨name, recvBuf, recvBufTmp, pc⟩ := h
  obtain ⟨hname, hpc, -, hcount, hfresh, honce⟩ := hd
  simp only at hname hpc hfresh honce
  cases m with
  | setName name' =>
    obtain ⟨rfl, rfl⟩ : _ = h' ∧ [] = p := by simpa [MsgHandle.step] using hstep
    refine ⟨hm, hpc, hbytes, ?_, by simpa using hfresh, by simpa using honce⟩
    simpa [isDealMsg] using hcount
  | handleMessage buf =>
    obtain ⟨rfl, rfl⟩ : _ = h' ∧ [] = p := by simpa [MsgHandle.step] using hstep
    refine ⟨hname, hpc, hbytes, ?_, by simpa using hfresh, by simpa using honce⟩
    simpa [isDealMsg] using hcount
  | readName =>
    cases pc with
    | named | loaded => simp [MsgHandle.step] at hstep
    | top =>
      obtain ⟨rfl, rfl⟩ : _ = h' ∧ [] = p := by simpa [MsgHandle.step] using hstep
      refine ⟨hname, ?_, hbytes, by simpa [isDealMsg] using hcount,
        fun hout _ => ?_, fun o ho _ => ?_⟩
      · by_cases hempty : name = ""
        · exact .inl (if_pos hempty)
        · exact .inr (.inl ((if_neg hempty).trans (by rw [hname.resolve_right hempty])))
      · exact hfresh (by simpa using hout) (by simp)
      · exact honce o (by simpa using ho) (by simp)
  | take =>
    cases pc with
    | top | loaded => simp [MsgHandle.step] at hstep
    | named n =>
      obtain rfl : n = devName := by simpa using hpc
      simp only [MsgHandle.step, Option.some.injEq, Prod.mk.injEq] at hstep
      obtain ⟨rfl, rfl⟩ := hstep
      by_cases hempty : recvBufTmp ++ recvBuf = []
      · obtain ⟨rfl, rfl⟩ := List.append_eq_nil_iff.mp hempty
        refine ⟨hname, .inl rfl, hbytes, by simpa [isDealMsg] using hcount, fun _ _ => rfl,
          fun o ho _ => ?_⟩
        exact honce o (by simpa using ho) (by simp)
      · refine ⟨hname, .inr (.inr (if_neg hempty)), hbytes, by simpa [isDealMsg] using hcount,
          fun _ hpc' => ?_, fun _ _ hpc' => ?_⟩
        all_goals exact absurd (if_neg hempty) (hpc' n)
  | dealMsg mapFixFunc =>
    cases pc with
    | top | named => simp [MsgHandle.step] at hstep
    | loaded n =>
      obtain rfl : n = devName := by simpa using hpc
      obtain ⟨d, hdealt⟩ : ∃ d, dealt n recvBufTmp (ofSize recvBufTmp.length) = d := ⟨_, rfl⟩
      simp only [MsgHandle.step, dealMsg_fixFrame hm, hdealt, Option.toList_some,
        Option.some.injEq, Prod.mk.injEq] at hstep
      obtain ⟨rfl, rfl⟩ := hstep
      refine ⟨hname, .inl rfl, hbytes, by simpa [isDealMsg] using hcount, by simp,
        fun o ho _ => ⟨recvBufTmp, ?_⟩⟩
      obtain ⟨-, rfl⟩ : out = [] ∧ d.2 = o := by simpa [List.append_eq_singleton_iff] using ho
      exact hdealt

lemma Dealt.run {ms : List (Move β)} {h t : MsgHandle β} {out : List (Output β)}
    (hh : Awaits devName h) (hms : ∀ m ∈ ms, Serves devName m)
    (hrun : run MsgHandle.step h ms = some (t, out)) : Dealt devName ms t out :=
  run_inv (C := fun _ m => Serves devName m) (I := Dealt devName) hh.dealt
    (fun _ _ _ _ _ _ hd hm hstep => hd.step hm hstep) hrun
    (along_of_forall (fun m hm _ => hms m hm) h)

/-- A reply is handed over whole, and nothing else with it, just if `dealMsg` is called once,
which is to say when all of it has arrived, and an `int` holds its length. -/
theorem whole_iff {ms : List (Move β)} {h t : MsgHandle β} {out : List (Output β)}
    {reply : List β} (hh : Awaits devName h) (hms : ∀ m ∈ ms, Serves devName m)
    (hrun : run MsgHandle.step h ms = some (t, out)) (hreply : received ms = reply)
    (hpassed : Passed t) (hlen : 8 ≤ reply.length) :
    out = [.frame devName reply] ↔ ms.countP isDealMsg = 1 ∧ (reply.length : ℤ) ≤ intMax := by
  have hd := Dealt.run hh hms hrun
  have hone {o : Output β} (ho : out = [o]) :
      o = (dealt devName reply (ofSize reply.length)).2 := by
    obtain ⟨buf, hbuf⟩ := hd.once o ho hpassed.2
    have hb := dealt_bytes devName buf (ofSize buf.length)
    have hbytes := hd.bytes
    rw [hreply, ho, hpassed.1, List.append_nil, List.flatMap_singleton] at hbytes
    rw [hbuf, ← hbytes] at hb
    rw [hb, hbuf]
  constructor
  · intro hout
    have hframe := hone hout
    exact ⟨by rw [← hd.count, hout, List.length_singleton], (dealt_whole_iff hlen).mp hframe.symm⟩
  · rintro ⟨hcount, hmax⟩
    obtain ⟨o, ho⟩ := List.length_eq_one_iff.mp (hd.count.trans hcount)
    rw [ho, hone ho, (dealt_whole_iff hlen).mpr hmax]

/-! ### Nine bytes -/

def modbus : Map String (FixFunc ℕ) :=
  (∅ : Map String (FixFunc ℕ)).insert "D" fixFrame

/-- The thread polls the handle after some bytes have come. -/
def polled (buf : List ℕ) : List (Move ℕ) :=
  [.handleMessage buf, .readName, .take, .dealMsg modbus]

def waiting : MsgHandle ℕ := ⟨"D", [], [], .top⟩

lemma waiting_awaits : Awaits "D" waiting := ⟨rfl, rfl, rfl, .inl rfl⟩

lemma polled_serves {buf : List ℕ} : ∀ m ∈ polled buf, Serves "D" m := by
  simp [polled, Serves, modbus]

lemma run_polled (buf : List ℕ) {rest : List ℕ} {o : Output ℕ} (h : buf ≠ [])
    (hdealt : Channel.dealMsg modbus "D" buf = (rest, some o)) :
    run MsgHandle.step waiting (polled buf) = some ({ waiting with recvBufTmp := rest }, [o]) := by
  simp [polled, waiting, run, MsgHandle.step, h, hdealt]

lemma dealMsg_whole {buf : List ℕ} (hlen : 8 ≤ buf.length) (hmax : (buf.length : ℤ) ≤ intMax) :
    Channel.dealMsg modbus "D" buf = ([], some (.frame "D" buf)) := by
  have hwhole : (dealt "D" buf (ofSize buf.length)).2 = .frame "D" buf :=
    (dealt_whole_iff hlen).mpr hmax
  have hrest : (dealt "D" buf (ofSize buf.length)).1 = [] := by
    have := dealt_bytes "D" buf (ofSize buf.length)
    rw [hwhole] at this
    exact List.append_right_eq_self.mp this
  rw [dealMsg_fixFrame (by simp [modbus]), hwhole, hrest]

lemma dealMsg_short {buf : List ℕ} (hlen : buf.length < 8) :
    Channel.dealMsg modbus "D" buf = ([], some (.discarded buf)) := by
  have hsize := ofSize_of_le (n := buf.length) (by unfold intMax; omega)
  rw [dealMsg_fixFrame (by simp [modbus]), hsize, dealt, if_pos (by omega)]

/-- A reply of nine bytes -/
def nine : List ℕ := [1, 3, 4, 0, 10, 0, 20, 90, 53]

theorem nine_whole : ∃ t out, run MsgHandle.step waiting (polled nine) = some (t, out) ∧
    out = [.frame "D" nine] := by
  have hrun := run_polled nine (by decide) (dealMsg_whole (by decide) (by decide))
  refine ⟨_, _, hrun, ?_⟩
  exact (whole_iff waiting_awaits polled_serves hrun rfl ⟨rfl, by simp [waiting]⟩ (by decide)).mpr
    ⟨rfl, by decide⟩

/-- The last byte comes after the others have been passed on. -/
theorem last_byte_lost : ¬ ∀ (ms : List (Move ℕ)) (t : MsgHandle ℕ) (out : List (Output ℕ))
    (reply : List ℕ), (∀ m ∈ ms, Serves "D" m) → run MsgHandle.step waiting ms = some (t, out) →
      received ms = reply → Passed t → 8 ≤ reply.length → out = [.frame "D" reply] := by
  intro h
  have hfirst := run_polled (nine.take 8) (by decide) (dealMsg_whole (by decide) (by decide))
  have hlast := run_polled (nine.drop 8) (by decide) (dealMsg_short (by decide))
  have hrun := run_append.mpr ⟨_, _, _, hfirst, hlast, rfl⟩
  have hserves : ∀ m ∈ polled (nine.take 8) ++ polled (nine.drop 8), Serves "D" m := by
    intro m hm
    rcases List.mem_append.mp hm with hm | hm
    · exact polled_serves m hm
    · exact polled_serves m hm
  have hout := h _ _ _ nine hserves hrun rfl ⟨rfl, by simp [waiting]⟩ (by decide)
  simp at hout

end DataEngine.CollModbus
