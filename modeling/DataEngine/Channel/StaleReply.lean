import DataEngine.Channel.ChannelBase

/-!
Stale replies: bytes returned to a request that arrived before it was sent.

Nothing is emptied when a request is sent. A request is answered with bytes of its own time if
nothing that arrived earlier is then on its way; if something is, the message thread can still
take it for the answer.
-/

namespace DataEngine.Channel

open Lib.Machine

variable {β σ : Type}

/-- Every byte arrived after the first `n` requests had been sent. -/
def Since (n : ℕ) (buf : List (β × ℕ)) : Prop := ∀ b ∈ buf, n ≤ b.2

lemma since_nil (n : ℕ) : Since n ([] : List (β × ℕ)) := by simp [Since]

lemma Since.append {n : ℕ} {a b : List (β × ℕ)} (ha : Since n a) (hb : Since n b) :
    Since n (a ++ b) := List.forall_mem_append.mpr ⟨ha, hb⟩

lemma Since.subset {n : ℕ} {a b : List (β × ℕ)} (h : Since n b) (hs : a ⊆ b) : Since n a :=
  fun x hx => h x (hs hx)

/-- Every byte returned arrived after the request was sent. -/
def Reply.Fresh (r : Reply β) : Prop := Since r.request r.recvBuf

namespace ChannelBase

variable [Semaphore σ]

/-- Nothing that has arrived is on its way: no buffer of the receive path holds a byte, nor does
a frame that has been cut off and not yet been posted. -/
structure Clean (c : ChannelBase β σ) : Prop where
  recvBuf : c.msgHandle.recvBuf = []
  recvBufTmp : c.msgHandle.recvBufTmp = []
  storing : ∀ name buf, c.completing = .storing name buf → buf = []
  posting : ∀ name, c.completing = .posting name → c.recvBuf = []

/-- A request is sent only when nothing is on its way. -/
def CleanSend (c : ChannelBase β σ) : Move β → Prop
  | .send _ => Clean c
  | _ => True

/-- What is on its way arrived after the last request was sent, and so did what the requester
would be given. -/
structure Current (c : ChannelBase β σ) : Prop where
  recvBuf : Since c.sent c.msgHandle.recvBuf
  recvBufTmp : Since c.sent c.msgHandle.recvBufTmp
  storing : ∀ name buf, c.completing = .storing name buf → Since c.sent buf
  posting : ∀ name, c.completing = .posting name → Since c.sent c.recvBuf
  pending : ∀ name, c.caller = .registering name ∨ c.caller = .waiting name →
    Semaphore.count (c.mapSem name) ≠ 0 → Since c.sent c.recvBuf
  posted : ∀ name, c.caller = .posted name → Since c.sent c.recvBuf

lemma current_init : Current (init : ChannelBase β σ) := by
  constructor <;> simp [init, MsgHandle.init, since_nil]

/-- A request sent when nothing is on its way makes a fresh start. -/
lemma Clean.send {c : ChannelBase β σ} (h : Clean c) (name : String) :
    Current { c with caller := .draining name, sent := c.sent + 1 } where
  recvBuf := by simp [h.recvBuf, since_nil]
  recvBufTmp := by simp [h.recvBufTmp, since_nil]
  storing n buf hs := by simp [h.storing n buf hs, since_nil]
  posting n hp := by simp [h.posting n hp, since_nil]
  pending n hn := by simp at hn
  posted n hn := by simp at hn

/-- A move keeps what is on its way current, and an answer is fresh. -/
lemma Current.moved {c c' : ChannelBase β σ} {m : Move β} {out : List (Reply β)} (h : Current c)
    (hc : CleanSend c m) (hm : c.Moved m c' out) : Current c' ∧ ∀ r ∈ out, r.Fresh := by
  cases hm with
  | handleMessage buf =>
    refine ⟨{ h with recvBuf := h.recvBuf.append fun b hb => ?_ }, by simp⟩
    obtain ⟨x, -, rfl⟩ := List.mem_map.mp hb
    exact le_refl _
  | readName => exact ⟨{ h with }, by simp⟩
  | take =>
    exact ⟨{ h with
      recvBuf := since_nil _
      recvBufTmp := h.recvBufTmp.append h.recvBuf }, by simp⟩
  | keep hout hpc hrest => exact ⟨{ h with recvBufTmp := h.recvBufTmp.subset hrest }, by simp⟩
  | cut n =>
    refine ⟨{ h with
      recvBufTmp := h.recvBufTmp.subset (List.drop_subset _ _)
      storing := fun name buf hs => ?_
      posting := by simp }, by simp⟩
    obtain ⟨-, rfl⟩ := Completing.storing.inj hs
    exact h.recvBufTmp.subset (List.take_subset _ _)
  | store hstoring =>
    exact ⟨{ h with
      storing := by simp
      posting := fun _ _ => h.storing _ _ hstoring
      pending := fun _ _ _ => h.storing _ _ hstoring
      posted := fun _ _ => h.storing _ _ hstoring }, by simp⟩
  | post hposting =>
    exact ⟨{ h with
      storing := by simp
      posting := by simp
      pending := fun _ _ _ => h.posting _ hposting
      posted := fun _ _ => h.posting _ hposting }, by simp⟩
  | clear => exact ⟨{ h with storing := by simp, posting := by simp }, by simp⟩
  | send name => exact ⟨hc.send name, by simp⟩
  | drain hdraining =>
    exact ⟨{ h with
      pending := by simp [setSem, hdraining]
      posted := by simp [setSem, hdraining] }, by simp⟩
  | drained hdraining hs =>
    refine ⟨{ h with pending := fun n hn hcount => ?_, posted := by simp }, by simp⟩
    obtain rfl : _ = n := by simpa using hn
    exact absurd (Semaphore.tryPend_eq_none.mp hs) hcount
  | setName hregistering =>
    refine ⟨{ h with pending := fun n hn hcount => ?_, posted := by simp }, by simp⟩
    obtain rfl : _ = n := by simpa using hn
    exact h.pending _ (.inl hregistering) hcount
  | pend hwaiting hs =>
    refine ⟨{ h with pending := by simp, posted := fun _ _ => ?_ }, by simp⟩
    exact h.pending _ (.inr hwaiting) (by rw [Semaphore.count_of_tryPend hs]; omega)
  | timeOut => exact ⟨{ h with pending := by simp, posted := by simp }, by simp⟩
  | withdraw => exact ⟨{ h with pending := by simp, posted := by simp }, by simp⟩
  | answer hposted =>
    refine ⟨{ h with pending := by simp, posted := by simp }, fun r hr => ?_⟩
    obtain rfl := List.mem_singleton.mp hr
    exact h.posted _ hposted

lemma Current.run {c c' : ChannelBase β σ} {ms : List (Move β)} {out : List (Reply β)}
    (h : Current c) (hrun : run step c ms = some (c', out)) (hc : Along step CleanSend c ms) :
    Current c' ∧ ∀ r ∈ out, r.Fresh := by
  refine run_inv (I := fun _ c out => Current c ∧ ∀ r ∈ out, r.Fresh) ⟨h, by simp⟩ ?_ hrun hc
  rintro _ t o m u p ⟨ht, ho⟩ hm hstep
  obtain ⟨hu, hp⟩ := ht.moved hm (step_moved hstep)
  exact ⟨hu, List.forall_mem_append.mpr ⟨ho, hp⟩⟩

/-! ### What is left over can be returned -/

/-- Nothing arrives from the future. -/
structure Past (c : ChannelBase β σ) : Prop where
  recvBuf : ∀ b ∈ c.msgHandle.recvBuf, b.2 ≤ c.sent
  recvBufTmp : ∀ b ∈ c.msgHandle.recvBufTmp, b.2 ≤ c.sent
  storing : ∀ name buf, c.completing = .storing name buf → ∀ b ∈ buf, b.2 ≤ c.sent
  stored : ∀ b ∈ c.recvBuf, b.2 ≤ c.sent

lemma Past.moved {c c' : ChannelBase β σ} {m : Move β} {out : List (Reply β)} (h : Past c)
    (hm : c.Moved m c' out) : Past c' := by
  cases hm with
  | handleMessage buf =>
    refine { h with recvBuf := fun b hb => ?_ }
    obtain hb | hb := List.mem_append.mp hb
    · exact h.recvBuf b hb
    · obtain ⟨x, -, rfl⟩ := List.mem_map.mp hb
      exact le_refl _
  | take =>
    exact { h with
      recvBuf := by simp
      recvBufTmp := List.forall_mem_append.mpr ⟨h.recvBufTmp, h.recvBuf⟩ }
  | keep hout hpc hrest => exact { h with recvBufTmp := fun b hb => h.recvBufTmp b (hrest hb) }
  | cut n =>
    refine { h with
      recvBufTmp := fun b hb => h.recvBufTmp b (List.mem_of_mem_drop hb)
      storing := fun name buf hs b hb => ?_ }
    obtain ⟨-, rfl⟩ := Completing.storing.inj hs
    exact h.recvBufTmp b (List.mem_of_mem_take hb)
  | store hstoring => exact { h with storing := by simp, stored := h.storing _ _ hstoring }
  | post => exact { h with storing := by simp }
  | clear => exact { h with storing := by simp }
  | send name =>
    exact {
      recvBuf := fun b hb => (h.recvBuf b hb).trans (Nat.le_succ _)
      recvBufTmp := fun b hb => (h.recvBufTmp b hb).trans (Nat.le_succ _)
      storing := fun n buf hs b hb => (h.storing n buf hs b hb).trans (Nat.le_succ _)
      stored := fun b hb => (h.stored b hb).trans (Nat.le_succ _) }
  | _ => exact { h with }

lemma past_of_run {ms : List (Move β)} {c : ChannelBase β σ} {out : List (Reply β)}
    (hrun : Lib.Machine.run step init ms = some (c, out)) : Past c := by
  refine run_inv (I := fun _ c _ => Past c) ?_ ?_ hrun (along_true _ _)
  · constructor <;> simp [init, MsgHandle.init]
  · intro _ t _ m u p ht _ hstep
    exact ht.moved (step_moved hstep)

/-- A move that sends no request. -/
def Quiet (m : Move β) : Prop := ∀ name, m ≠ .send name

/-- Some byte arrived before the last request was sent. -/
def Stale (n : ℕ) (buf : List (β × ℕ)) : Prop := ∃ b ∈ buf, b.2 < n

/-- With no further request sent, some answer given is not fresh. -/
def Leaks (c : ChannelBase β σ) : Prop := Leads step Quiet c fun _ out => ∃ r ∈ out, ¬ r.Fresh

lemma Leaks.move {c c' : ChannelBase β σ} {m : Move β} (hstep : c.step m = some (c', []))
    (hm : Quiet m) (h : Leaks c') : Leaks c :=
  Leads.move hstep hm h

lemma leaks_of_posted {c : ChannelBase β σ} {name : String} (hc : c.caller = .posted name)
    (hs : Stale c.sent c.recvBuf) : Leaks c := by
  obtain ⟨b, hb, hlt⟩ := hs
  have hanswer : c.step .answer =
      some ({ c with caller := .idle }, [⟨name, c.sent, c.recvBuf⟩]) := by simp only [step, hc]
  refine Leads.move hanswer (by simp [Quiet]) (.here ⟨⟨name, c.sent, c.recvBuf⟩, by simp, ?_⟩)
  exact fun h => absurd (h b hb) (Nat.not_le.mpr hlt)

lemma leaks_of_posting {c : ChannelBase β σ} {name : String} (hw : c.caller = .waiting name)
    (hc : c.completing = .posting name) (hs : Stale c.sent c.recvBuf) : Leaks c := by
  let c₁ : ChannelBase β σ :=
    { c.setSem name (Semaphore.post (c.mapSem name)) with completing := .clearing }
  have hpost : c.step .post = some (c₁, []) := by simp only [step, hc]; rfl
  have hcount : Semaphore.count (c₁.mapSem name) ≠ 0 := by
    simp [c₁, setSem, Semaphore.count_post]
  obtain ⟨s, hsem⟩ : ∃ s, Semaphore.tryPend (c₁.mapSem name) = some s := by
    rw [← Option.ne_none_iff_exists']
    exact fun h => hcount (Semaphore.tryPend_eq_none.mp h)
  have hpend : c₁.step .pend = some ({ c₁.setSem name s with caller := .posted name }, []) := by
    have hw₁ : c₁.caller = .waiting name := hw
    simp only [step, hw₁, hsem]
    rfl
  exact .move hpost (by simp [Quiet]) (.move hpend (by simp [Quiet]) (leaks_of_posted rfl hs))

lemma leaks_of_storing {c : ChannelBase β σ} {name : String} {buf : List (β × ℕ)}
    (hw : c.caller = .waiting name) (hc : c.completing = .storing name buf)
    (hs : Stale c.sent buf) : Leaks c := by
  have hstore : c.step .store =
      some ({ c with recvBuf := buf, completing := .posting name }, []) := by simp only [step, hc]
  exact .move hstore (by simp [Quiet]) (leaks_of_posting hw rfl hs)

lemma dealMsg_firstByte (name : String) (buf : List (β × ℕ)) :
    Channel.dealMsg (onBytes (firstByte name)) name buf =
      (buf.drop 1, some (.frame name (buf.take 1))) := by
  have hsize : toSize 1 = 1 := by decide
  simp [Channel.dealMsg, onBytes, firstByte, hsize]

lemma leaks_of_loaded {c : ChannelBase β σ} {name : String} (hw : c.caller = .waiting name)
    (hc : c.completing = .out) (hpc : c.msgHandle.pc = .loaded name) {b : β × ℕ}
    {bs : List (β × ℕ)} (hb : b.2 < c.sent) (htmp : c.msgHandle.recvBufTmp = b :: bs) :
    Leaks c := by
  have hdeal : c.step (.dealMsg (firstByte name)) = some ({ c with
      msgHandle := { c.msgHandle with recvBufTmp := bs, pc := .top }
      completing := .storing name [b] }, []) := by
    simp [step, threadStep, hc, MsgHandle.step, hpc, dealMsg_firstByte, htmp, completingOf]
  exact .move hdeal (by simp [Quiet]) (leaks_of_storing hw rfl ⟨b, by simp, hb⟩)

lemma leaks_of_top {c : ChannelBase β σ} {name : String} (hname : name ≠ "")
    (hw : c.caller = .waiting name) (hc : c.completing = .out) (hpc : c.msgHandle.pc = .top)
    (hn : c.msgHandle.name = name) {b : β × ℕ} {bs : List (β × ℕ)} (hb : b.2 < c.sent)
    (hbuf : c.msgHandle.recvBufTmp ++ c.msgHandle.recvBuf = b :: bs) : Leaks c := by
  have hread : c.step .readName = some ({ c with
      msgHandle := { c.msgHandle with pc := .named name }
      overtaken := false }, []) := by
    simp [step, threadStep, hc, MsgHandle.step, hpc, hn, hname]
  refine .move hread (by simp [Quiet]) ?_
  have htake : step { c with
      msgHandle := { c.msgHandle with pc := .named name }
      overtaken := false } .take = some ({ c with
      msgHandle := { c.msgHandle with
        recvBuf := []
        recvBufTmp := b :: bs
        pc := .loaded name }
      overtaken := false }, []) := by
    simp [step, threadStep, hc, MsgHandle.step, hbuf]
  exact .move htake (by simp [Quiet]) (leaks_of_loaded hw hc rfl hb rfl)

/-! ### Getting there -/

/-- The requester is where it was, and the same bytes are in the buffers. -/
def Kept (c t : ChannelBase β σ) : Prop :=
  t.caller = c.caller ∧ t.sent = c.sent ∧
    t.msgHandle.recvBufTmp ++ t.msgHandle.recvBuf = c.msgHandle.recvBufTmp ++ c.msgHandle.recvBuf

/-- The message thread can leave `recvComplete`. -/
lemma leads_out (c : ChannelBase β σ) :
    Leads step Quiet c fun t out => out = [] ∧ Kept c t ∧ t.completing = .out := by
  have hclear (c : ChannelBase β σ) (hc : c.completing = .clearing) :
      Leads step Quiet c fun t out => out = [] ∧ Kept c t ∧ t.completing = .out := by
    have hstep : c.step .clear = some ({ c.setName "" with completing := .out }, []) := by
      simp only [step, hc]
    exact .move hstep (by simp [Quiet]) (.here ⟨rfl, ⟨rfl, rfl, rfl⟩, rfl⟩)
  have hpost (c : ChannelBase β σ) {name : String} (hc : c.completing = .posting name) :
      Leads step Quiet c fun t out => out = [] ∧ Kept c t ∧ t.completing = .out := by
    have hstep : c.step .post = some
        ({ c.setSem name (Semaphore.post (c.mapSem name)) with completing := .clearing }, []) := by
      simp only [step, hc]
    exact .move hstep (by simp [Quiet]) (hclear _ rfl)
  rcases hc : c.completing with _ | ⟨name, buf⟩ | name | _
  · exact .here ⟨rfl, ⟨rfl, rfl, rfl⟩, hc⟩
  · have hstep : c.step .store =
        some ({ c with recvBuf := buf, completing := .posting name }, []) := by simp only [step, hc]
    exact .move hstep (by simp [Quiet]) (hpost _ rfl)
  · exact hpost c hc
  · exact hclear c hc

/-- The message thread can get to the top of its loop with nothing taken off. -/
lemma leads_top {c : ChannelBase β σ} (hc : c.completing = .out) :
    Leads step Quiet c fun t out =>
      out = [] ∧ Kept c t ∧ t.completing = .out ∧ t.msgHandle.pc = .top := by
  have hloaded (c : ChannelBase β σ) (hc : c.completing = .out) {name : String}
      (hpc : c.msgHandle.pc = .loaded name) : Leads step Quiet c fun t out =>
        out = [] ∧ Kept c t ∧ t.completing = .out ∧ t.msgHandle.pc = .top := by
    have hstep : c.step (.dealMsg ∅) =
        some ({ c with msgHandle := { c.msgHandle with pc := .top } }, []) := by
      simp [step, threadStep, hc, MsgHandle.step, hpc, onBytes, Channel.dealMsg, completingOf]
    exact .move hstep (by simp [Quiet]) (.here ⟨rfl, ⟨rfl, rfl, rfl⟩, hc, rfl⟩)
  rcases hpc : c.msgHandle.pc with _ | name | name
  · exact .here ⟨rfl, ⟨rfl, rfl, rfl⟩, hc, hpc⟩
  · have hstep : c.step .take = some ({ c with msgHandle := { c.msgHandle with
        recvBuf := []
        recvBufTmp := c.msgHandle.recvBufTmp ++ c.msgHandle.recvBuf
        pc := if c.msgHandle.recvBufTmp ++ c.msgHandle.recvBuf = [] then .top
          else .loaded name } }, []) := by
      simp only [step, threadStep, hc, MsgHandle.step, hpc]
      rfl
    refine .move hstep (by simp [Quiet]) ?_
    by_cases hbuf : c.msgHandle.recvBufTmp ++ c.msgHandle.recvBuf = []
    · exact .here ⟨rfl, ⟨rfl, rfl, by simp⟩, hc, if_pos hbuf⟩
    · rw [if_neg hbuf]
      refine Leads.then (hloaded _ hc rfl) ?_
      rintro t _ ⟨rfl, ⟨hcaller, hsent, hkept⟩, ht⟩
      exact .here ⟨rfl, ⟨hcaller, hsent, by simpa using hkept⟩, ht⟩
  · exact hloaded c hc hpc

/-- The loop of `tryPend` comes to its end. -/
lemma leads_registering {c : ChannelBase β σ} {name : String} (hc : c.caller = .draining name) :
    Leads step Quiet c fun t out =>
      out = [] ∧ ∃ f, t = { c with mapSem := f, caller := .registering name } := by
  induction hn : Semaphore.count (c.mapSem name) generalizing c with
  | zero =>
    have hstep : c.step .tryPend = some ({ c with caller := .registering name }, []) := by
      simp only [step, hc, Semaphore.tryPend_eq_none.mpr hn]
    exact .move hstep (by simp [Quiet]) (.here ⟨rfl, c.mapSem, rfl⟩)
  | succ n ih =>
    obtain ⟨s, hs⟩ : ∃ s, Semaphore.tryPend (c.mapSem name) = some s := by
      rw [← Option.ne_none_iff_exists']
      intro h
      rw [Semaphore.tryPend_eq_none.mp h] at hn
      omega
    have hstep : c.step .tryPend = some (c.setSem name s, []) := by simp only [step, hc, hs]
    have hcount := Semaphore.count_of_tryPend hs
    have h := ih (c := c.setSem name s) hc (by simp [setSem]; omega)
    exact .move hstep (by simp [Quiet]) h

/-- A device can be announced with the message thread where it was. -/
lemma leaks_of_draining {c : ChannelBase β σ} {name : String} (hc : c.caller = .draining name)
    (h : ∀ f, Leaks ({ c with
      mapSem := f
      msgHandle := { c.msgHandle with name := name }
      caller := .waiting name
      overtaken := true } : ChannelBase β σ)) : Leaks c := by
  refine (leads_registering hc).then ?_
  rintro _ _ ⟨rfl, f, rfl⟩
  let c₁ : ChannelBase β σ := { c with mapSem := f, caller := .registering name }
  have hset : c₁.step .setName =
      some ({ c₁.setName name with caller := .waiting name, overtaken := true }, []) := rfl
  exact Leads.move hset (by simp [Quiet]) (h f)

/-- If something is on its way when a request is sent, it can be returned as the answer. -/
lemma leaks_of_not_clean {c : ChannelBase β σ} (hp : Past c) (h : ¬ Clean c) :
    ∃ name, Leaks ({ c with caller := .draining name, sent := c.sent + 1 } : ChannelBase β σ) := by
  have hlt {b : β × ℕ} (hb : b.2 ≤ c.sent) : b.2 < c.sent + 1 := Nat.lt_succ_of_le hb
  by_cases hbuf : c.msgHandle.recvBufTmp ++ c.msgHandle.recvBuf = []
  · obtain ⟨htmp, hrecv⟩ := List.append_eq_nil_iff.mp hbuf
    rcases hc : c.completing with _ | ⟨name, buf⟩ | name | _
    · exact absurd ⟨hrecv, htmp, by simp [hc], by simp [hc]⟩ h
    · have hne : buf ≠ [] := fun hnil =>
        h ⟨hrecv, htmp, fun n b hb => (Completing.storing.inj (hc.symm.trans hb)).2 ▸ hnil,
          by simp [hc]⟩
      obtain ⟨b, hb⟩ := List.exists_mem_of_ne_nil buf hne
      refine ⟨name, leaks_of_draining rfl fun f => leaks_of_storing rfl rfl ⟨b, hb, ?_⟩⟩
      exact hlt (hp.storing name buf hc b hb)
    · have hne : c.recvBuf ≠ [] := fun hnil => h ⟨hrecv, htmp, by simp [hc], fun _ _ => hnil⟩
      obtain ⟨b, hb⟩ := List.exists_mem_of_ne_nil c.recvBuf hne
      refine ⟨name, leaks_of_draining rfl fun f => leaks_of_posting rfl rfl ⟨b, hb, ?_⟩⟩
      exact hlt (hp.stored b hb)
    · exact absurd ⟨hrecv, htmp, by simp [hc], by simp [hc]⟩ h
  · obtain ⟨b, bs, hbs⟩ := List.exists_cons_of_ne_nil hbuf
    have hb : b.2 ≤ c.sent :=
      List.forall_mem_append.mpr ⟨hp.recvBufTmp, hp.recvBuf⟩ b (by simp [hbs])
    refine ⟨"D", (leads_out _).then ?_⟩
    rintro t _ ⟨rfl, ⟨hcaller, hsent, hkept⟩, hout⟩
    refine (leads_top hout).then ?_
    rintro u _ ⟨rfl, ⟨hcaller', hsent', hkept'⟩, hout', htop⟩
    refine leaks_of_draining (hcaller'.trans hcaller) fun f => ?_
    refine leaks_of_top (by decide) rfl hout' htop rfl ?_ (hkept'.trans (hkept.trans hbs))
    rw [hsent', hsent]
    exact hlt hb

/-- **No stale reply**: if requests are sent only when nothing is on its way, every answer is
fresh. In a state that a run has reached, the answers to the next request are sure to be fresh
exactly if nothing is on its way. -/
theorem fresh_of_clean {ms : List (Move β)} {c : ChannelBase β σ} {out : List (Reply β)}
    (hrun : Lib.Machine.run step init ms = some (c, out)) :
    (Along step CleanSend (init : ChannelBase β σ) ms → ∀ r ∈ out, r.Fresh) ∧
      (c.caller = .idle →
        (Clean c ↔ ∀ name ns c' out', (∀ m ∈ ns, Quiet m) →
          Lib.Machine.run step c (.send name :: ns) = some (c', out') → ∀ r ∈ out', r.Fresh)) := by
  refine ⟨fun hc => (current_init.run hrun hc).2, fun hidle => ⟨fun hclean => ?_, fun h => ?_⟩⟩
  · intro name ns c' out' hns hrun'
    obtain ⟨t, o, p, hsend, hrest, rfl⟩ := run_cons.mp hrun'
    simp only [step, hidle, Option.some.injEq, Prod.mk.injEq] at hsend
    obtain ⟨rfl, rfl⟩ := hsend
    refine ((hclean.send name).run hrest (along_of_forall (fun m hm t => ?_) _)).2
    cases m with
    | send n => exact absurd rfl (hns _ hm n)
    | _ => trivial
  · by_contra hclean
    obtain ⟨name, ns, c', out', hns, hrun', r, hr, hfresh⟩ :=
      leaks_of_not_clean (past_of_run hrun) hclean
    have hsend : c.step (.send name) =
        some ({ c with caller := .draining name, sent := c.sent + 1 }, []) := by
      simp only [step, hidle]
    exact hfresh (h name ns c' _ hns (run_cons.mpr ⟨_, _, _, hsend, hrun', rfl⟩) r hr)

/-- A request that is answered in time. -/
def promptMoves : List (Move ℕ) :=
  [.send "A", .tryPend, .setName, .handleMessage [7], .readName, .take, .dealMsg (firstByte "A"),
    .store, .post, .pend, .answer]

theorem fresh_of_clean_prompt : Reply.Fresh (⟨"A", 1, [(7, 1)]⟩ : Reply ℕ) := by
  have hout : (Lib.Machine.run step (init : ChannelBase ℕ ℕ) promptMoves).map Prod.snd =
      some [⟨"A", 1, [(7, 1)]⟩] := by decide +kernel
  obtain ⟨⟨c, out⟩, hrun, rfl⟩ := Option.map_eq_some_iff.mp hout
  refine (fresh_of_clean hrun).1 ?_ _ (by simp)
  -- the first move is the only one that sends
  rintro pre m post hms t o hpre
  cases m with
  | send n =>
    rcases pre with _ | ⟨x, pre⟩
    · obtain ⟨rfl, -⟩ : init = t ∧ [] = o := by simpa using hpre
      constructor <;> simp [init, MsgHandle.init]
    · have hmem : Move.send n ∈ promptMoves.tail := by simp [hms]
      simp [promptMoves] at hmem
  | _ => trivial

/-- The reply to a request that has timed out, returned to the next one. -/
def lateMoves : List (Move ℕ) :=
  [.send "A", .tryPend, .setName, .timeOut, .withdraw, .handleMessage [7], .send "B", .tryPend,
    .setName, .readName, .take, .dealMsg (firstByte "B"), .store, .post, .pend, .answer]

theorem late_reply_returned :
    ¬ ∀ ms c out, Lib.Machine.run step (init : ChannelBase ℕ ℕ) ms = some (c, out) →
      ∀ r ∈ out, r.Fresh := by
  intro h
  have hout : (Lib.Machine.run step (init : ChannelBase ℕ ℕ) lateMoves).map Prod.snd =
      some [⟨"B", 2, [(7, 1)]⟩] := by decide +kernel
  obtain ⟨⟨c, out⟩, hrun, rfl⟩ := Option.map_eq_some_iff.mp hout
  exact absurd (h _ _ _ hrun ⟨"B", 2, [(7, 1)]⟩ (by simp) (7, 1) (by simp)) (by decide)

end ChannelBase

end DataEngine.Channel
