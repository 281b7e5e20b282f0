import DataEngine.Plug.IEC104.Stream

/-!
Connections that reuse a descriptor.

What is analysed on a connection is determined by its buffer when it is opened and by the
messages received on it, up to the fault of a handler. A connection that is closed leaves its
buffer behind, so the next one with its descriptor starts with what the first left unfinished.
-/

namespace DataEngine.TransIEC104

open Lib.Effect Lib.DoWhile Lib.Trace

/-! ### One connection -/

/-- How the loop goes through a buffer: whether it ends without a fault, which frames it
analyses, and what it leaves in the buffer. -/
inductive Drain (build : Build) : List UInt8 → Bool → List Frame → List UInt8 → Prop where
  | incomplete {buf : List UInt8} {n : ℤ} (h : verdict build buf = (.incomplete, n)) :
      Drain build buf true [] buf
  | invalid {buf : List UInt8} {n : ℤ} (h : verdict build buf = (.invalid, n)) :
      Drain build buf true [] []
  | fault {buf : List UInt8} {n : ℤ} (h : verdict build buf = (.complete, n)) :
      Drain build buf false [buf.take (toSize n)] (buf.drop (toSize n))
  | last {buf : List UInt8} {n : ℤ} (h : verdict build buf = (.complete, n))
      (hdrop : buf.drop (toSize n) = []) : Drain build buf true [buf.take (toSize n)] []
  | next {buf rest : List UInt8} {n : ℤ} {ok : Bool} {frames : List Frame}
      (h : verdict build buf = (.complete, n)) (hdrop : buf.drop (toSize n) ≠ [])
      (more : Drain build (buf.drop (toSize n)) ok frames rest) :
      Drain build buf ok (buf.take (toSize n) :: frames) rest

/-- What a connection hears of its messages, from a buffer on. Another connection may stop it
at any time. -/
inductive View (build : Build) : List (List UInt8) → List UInt8 → Bool → List Frame → Prop where
  | nil {buf : List UInt8} : View build [] buf true []
  | halt {chunks : List (List UInt8)} {buf : List UInt8} : View build chunks buf false []
  | call {chunk buf rest : List UInt8} {chunks : List (List UInt8)} {ok : Bool}
      {frames frames' : List Frame} (call : Drain build (buf ++ chunk) true frames rest)
      (more : View build chunks rest ok frames') :
      View build (chunk :: chunks) buf ok (frames ++ frames')
  | stop {chunk buf rest : List UInt8} {chunks : List (List UInt8)} {frames : List Frame}
      (call : Drain build (buf ++ chunk) false frames rest) :
      View build (chunk :: chunks) buf false frames

/-- Two connections analyse the same frames, as far as they get: one that is not stopped gets
at least as far as the other. -/
structure Agree (ok : Bool) (frames : List Frame) (ok' : Bool) (frames' : List Frame) : Prop where
  left : ok = true → frames' <+: frames
  right : ok' = true → frames <+: frames'
  comparable : frames <+: frames' ∨ frames' <+: frames

section Agree

variable {ok ok' : Bool} {fs gs : List Frame}

lemma Agree.refl : Agree ok fs ok' fs :=
  ⟨fun _ => List.prefix_refl _, fun _ => List.prefix_refl _, .inl (List.prefix_refl _)⟩

lemma Agree.symm (h : Agree ok fs ok' gs) : Agree ok' gs ok fs :=
  ⟨h.right, h.left, h.comparable.symm⟩

/-- One that is stopped before anything is analysed agrees with any other. -/
lemma Agree.stopped : Agree false [] ok gs :=
  ⟨by simp, fun _ => List.nil_prefix, .inl List.nil_prefix⟩

lemma Agree.append (h : Agree ok fs ok' gs) (hs : List Frame) :
    Agree ok (hs ++ fs) ok' (hs ++ gs) := by
  refine ⟨fun hok => ?_, fun hok => ?_, h.comparable.imp ?_ ?_⟩
  · exact (List.prefix_append_right_inj hs).mpr (h.left hok)
  · exact (List.prefix_append_right_inj hs).mpr (h.right hok)
  all_goals exact fun h => (List.prefix_append_right_inj hs).mpr h

/-- The other one goes on. -/
lemma Agree.extend (h : Agree false fs true gs) (hs : List Frame) :
    Agree false fs ok' (gs ++ hs) := by
  have hle : fs <+: gs ++ hs := (h.right rfl).trans (List.prefix_append _ _)
  exact ⟨by simp, fun _ => hle, .inl hle⟩

end Agree

variable {build : Build}

/-- The loop goes through a buffer in one way only, up to a fault. -/
lemma Drain.agree {buf rest rest' : List UInt8} {ok ok' : Bool} {fs gs : List Frame}
    (h : Drain build buf ok fs rest) (h' : Drain build buf ok' gs rest') :
    Agree ok fs ok' gs ∧ (ok = true → ok' = true → rest = rest') := by
  induction h generalizing ok' gs rest' with
  | incomplete hv =>
    cases h' with
    | incomplete hv' => exact ⟨.refl, fun _ _ => rfl⟩
    | invalid hv' | fault hv' | last hv' | next hv' => simp [hv] at hv'
  | invalid hv =>
    cases h' with
    | invalid hv' => exact ⟨.refl, fun _ _ => rfl⟩
    | incomplete hv' | fault hv' | last hv' | next hv' => simp [hv] at hv'
  | fault hv =>
    cases h' with
    | incomplete hv' | invalid hv' => simp [hv] at hv'
    | fault hv' | last hv' =>
      obtain rfl := congrArg Prod.snd (hv.symm.trans hv')
      exact ⟨.refl, by simp⟩
    | next hv' hdrop' more' =>
      obtain rfl := congrArg Prod.snd (hv.symm.trans hv')
      exact ⟨Agree.stopped.append [_], by simp⟩
  | last hv hdrop =>
    cases h' with
    | incomplete hv' | invalid hv' => simp [hv] at hv'
    | fault hv' =>
      obtain rfl := congrArg Prod.snd (hv.symm.trans hv')
      exact ⟨.refl, by simp⟩
    | last hv' hdrop' =>
      obtain rfl := congrArg Prod.snd (hv.symm.trans hv')
      exact ⟨.refl, fun _ _ => rfl⟩
    | next hv' hdrop' more' =>
      obtain rfl := congrArg Prod.snd (hv.symm.trans hv')
      exact absurd hdrop hdrop'
  | next hv hdrop more ih =>
    cases h' with
    | incomplete hv' | invalid hv' => simp [hv] at hv'
    | fault hv' =>
      obtain rfl := congrArg Prod.snd (hv.symm.trans hv')
      exact ⟨(Agree.stopped.append [_]).symm, by simp⟩
    | last hv' hdrop' =>
      obtain rfl := congrArg Prod.snd (hv.symm.trans hv')
      exact absurd hdrop' hdrop
    | next hv' hdrop' more' =>
      obtain rfl := congrArg Prod.snd (hv.symm.trans hv')
      obtain ⟨hagree, hrest⟩ := ih more'
      exact ⟨hagree.append [_], hrest⟩

/-- Connections with the same buffer and the same messages agree. -/
lemma View.agree {chunks : List (List UInt8)} {buf : List UInt8} {ok ok' : Bool}
    {fs gs : List Frame} (h : View build chunks buf ok fs) (h' : View build chunks buf ok' gs) :
    Agree ok fs ok' gs := by
  induction h generalizing ok' gs with
  | nil =>
    cases h' with
    | nil => exact .refl
    | halt => exact .refl
  | halt => exact .stopped
  | call hcall more ih =>
    cases h' with
    | halt => exact Agree.stopped.symm
    | call hcall' more' =>
      obtain ⟨hagree, hrest⟩ := hcall.agree hcall'
      obtain rfl := hrest rfl rfl
      obtain rfl := (hagree.left rfl).eq_of_length_le (hagree.right rfl).length_le
      exact (ih more').append _
    | stop hcall' => exact ((hcall'.agree hcall).1.extend _).symm
  | stop hcall =>
    cases h' with
    | halt => exact Agree.stopped.symm
    | call hcall' more' => exact (hcall.agree hcall').1.extend _
    | stop hcall' => exact (hcall.agree hcall').1

/-! ### What the plug-in does on a connection -/

variable {R V : Type} [Double R] {env : Env R V}

variable (env) in
/-- An empty buffer ends the loop. -/
lemma nonempty_of_again {fd : ℤ} {s t : Plug} (h : handlePass env build fd s = .again t) :
    t.mapRecvBuf fd ≠ [] := by
  simp only [handlePass] at h
  split at h
  · simp at h
  · simp at h
  · split at h
    · simp at h
    · split_ifs at h with he
      obtain rfl := Pass.again.inj h
      simpa using he

/-- The loop goes through the buffer of its connection and leaves the others alone. -/
lemma drain_of_leaves {fd : ℤ} {s : Plug} {o : Outcome} (hfd : s.fd = fd)
    (h : Leaves (handlePass env build fd) s o) :
    ∃ frames, Drain build (s.mapRecvBuf fd) o.1.isOk frames (o.2.mapRecvBuf fd) ∧
      framesOn fd o.2.log = framesOn fd s.log ++ frames ∧
      ∀ fd', fd' ≠ fd → o.2.mapRecvBuf fd' = s.mapRecvBuf fd' ∧
        framesOn fd' o.2.log = framesOn fd' s.log := by
  obtain ⟨k, hk⟩ := h
  induction k generalizing s with
  | zero => simp [passes] at hk
  | succ k ih =>
    rcases hv : verdict build (s.mapRecvBuf fd) with ⟨_ | _ | _, n⟩
    · obtain rfl : (.ok (), setBuf s fd []) = o := by
        simpa [passes, handlePass_invalid env build hv] using hk
      refine ⟨[], ?_, by simp [setBuf], fun fd' hne => ⟨Function.update_of_ne hne _ _, rfl⟩⟩
      have hempty : (setBuf s fd []).mapRecvBuf fd = [] := Function.update_self _ _ _
      rw [hempty]
      exact .invalid hv
    · -- one frame, and then the end of the loop or the next pass
      set t := (handleFrame env fd s (toSize n)).2 with ht
      obtain ⟨htfd, hframes⟩ := handleFrame_frames env fd s (toSize n) fd
      have hbuf := handleFrame_buf env fd s (toSize n)
      have hself : t.mapRecvBuf fd = (s.mapRecvBuf fd).drop (toSize n) := by
        rw [ht, hbuf, Function.update_self]
      have hother (fd' : ℤ) (hne : fd' ≠ fd) : t.mapRecvBuf fd' = s.mapRecvBuf fd' ∧
          framesOn fd' t.log = framesOn fd' s.log := by
        constructor
        · rw [ht, hbuf, Function.update_of_ne hne]
        · have := (handleFrame_frames env fd s (toSize n) fd').2
          rwa [hfd, if_neg (Ne.symm hne), List.append_nil] at this
      rw [hfd, if_pos rfl, ← ht] at hframes
      rcases handlePass_complete env build hv with ⟨hp, hempty⟩ | ⟨hp, hok⟩
      · obtain rfl : handleFrame env fd s (toSize n) = o := by
          simpa [passes, hp] using hk
        refine ⟨[(s.mapRecvBuf fd).take (toSize n)], ?_, hframes, hother⟩
        rcases ho : (handleFrame env fd s (toSize n)).1 with e | u
        · rw [← ht, hself]
          exact .fault hv
        · have hnil := hempty ho
          rw [← ht] at hnil
          rw [← ht, hnil]
          exact .last hv (hself ▸ hnil)
      · have hk : passes (handlePass env build fd) k t = .leave o := by
          simpa [passes, hp, ← ht] using hk
        obtain ⟨frames, hdrain, hlog, hrest⟩ := ih (htfd.trans hfd) hk
        refine ⟨(s.mapRecvBuf fd).take (toSize n) :: frames, ?_, ?_, fun fd' hne => ?_⟩
        · have hmore := nonempty_of_again env hp
          rw [← ht, hself] at hmore
          exact .next hv hmore (hself ▸ hdrain)
        · rw [hlog, hframes, List.append_assoc, List.singleton_append]
        · obtain ⟨h1, h2⟩ := hrest fd' hne
          obtain ⟨h3, h4⟩ := hother fd' hne
          exact ⟨h1.trans h3, h2.trans h4⟩
    · obtain rfl : (.ok (), s) = o := by
        simpa [passes, handlePass_incomplete env build hv] using hk
      exact ⟨[], .incomplete hv, by simp, fun fd' _ => ⟨rfl, rfl⟩⟩

/-! ### Runs of whole events -/

/-- What happens to the plug-in, a message with all of its handling. -/
inductive Event where
  | connection (status : ConnectStatus) (fd : ℤ)
  | message (fd : ℤ) (chunk : List UInt8)

/-- The events one after another, up to a message whose handling stops with a fault. -/
inductive Runs (env : Env R V) (build : Build) : List Event → Plug → Outcome → Prop where
  | nil (s : Plug) : Runs env build [] s (.ok (), s)
  | connection {status : ConnectStatus} {fd : ℤ} {evs : List Event} {s : Plug} {o : Outcome}
      (rest : Runs env build evs (newConnectedFunc status fd s) o) :
      Runs env build (.connection status fd :: evs) s o
  | message {fd : ℤ} {chunk : List UInt8} {evs : List Event} {s t : Plug} {o : Outcome}
      (call : HandleMessage env build fd chunk s (.ok (), t)) (rest : Runs env build evs t o) :
      Runs env build (.message fd chunk :: evs) s o
  | stop {fd : ℤ} {chunk : List UInt8} {evs : List Event} {s t : Plug} {e : Fault}
      (call : HandleMessage env build fd chunk s (.error e, t)) :
      Runs env build (.message fd chunk :: evs) s (.error e, t)

def Event.messageOn (fd : ℤ) : Event → Option (List UInt8)
  | .message fd' chunk => if fd' = fd then some chunk else none
  | .connection _ _ => none

/-- The messages received on a connection. -/
def messagesOn (fd : ℤ) (evs : List Event) : List (List UInt8) :=
  evs.filterMap (Event.messageOn fd)

lemma messagesOn_self (fd : ℤ) (chunk : List UInt8) (evs : List Event) :
    messagesOn fd (.message fd chunk :: evs) = chunk :: messagesOn fd evs := by
  simp [messagesOn, Event.messageOn]

lemma messagesOn_ne {fd fd' : ℤ} (h : fd' ≠ fd) (chunk : List UInt8) (evs : List Event) :
    messagesOn fd (.message fd' chunk :: evs) = messagesOn fd evs := by
  simp [messagesOn, Event.messageOn, h]

/-- The connection is neither closed nor opened. -/
def Stays (fd : ℤ) (evs : List Event) : Prop := ∀ status, .connection status fd ∉ evs

/-- The frames analysed on a connection from `s` to `t`. -/
def framesSince (fd : ℤ) (s t : Plug) : List Frame :=
  (framesOn fd t.log).drop (framesOn fd s.log).length

lemma framesSince_eq {fd : ℤ} {s t : Plug} {frames : List Frame}
    (h : framesOn fd t.log = framesOn fd s.log ++ frames) : framesSince fd s t = frames := by
  rw [framesSince, h, List.drop_left]

lemma framesOn_newConnected (fd fd' : ℤ) (status : ConnectStatus) (s : Plug) :
    framesOn fd' (newConnectedFunc status fd s).log = framesOn fd' s.log := by
  cases status <;> simp [newConnectedFunc, framesOn, Ev.frameOn]

lemma mapRecvBuf_newConnected (fd : ℤ) (status : ConnectStatus) (s : Plug) :
    (newConnectedFunc status fd s).mapRecvBuf = s.mapRecvBuf := by
  cases status <;> rfl

/-- What a call does on its connection, and that it does nothing on another. -/
lemma drain_of_call {fd : ℤ} {chunk : List UInt8} {s : Plug} {o : Outcome}
    (h : HandleMessage env build fd chunk s o) :
    ∃ frames, Drain build (s.mapRecvBuf fd ++ chunk) o.1.isOk frames (o.2.mapRecvBuf fd) ∧
      framesOn fd o.2.log = framesOn fd s.log ++ frames ∧
      ∀ fd', fd' ≠ fd → o.2.mapRecvBuf fd' = s.mapRecvBuf fd' ∧
        framesOn fd' o.2.log = framesOn fd' s.log := by
  have hfd : (receive fd chunk s).fd = fd := rfl
  obtain ⟨frames, hdrain, hlog, hother⟩ := drain_of_leaves hfd h
  have hself : (receive fd chunk s).mapRecvBuf fd = s.mapRecvBuf fd ++ chunk :=
    Function.update_self _ _ _
  rw [hself] at hdrain
  refine ⟨frames, hdrain, hlog, fun fd' hne => ?_⟩
  obtain ⟨h1, h2⟩ := hother fd' hne
  exact ⟨h1.trans (Function.update_of_ne hne _ _), h2⟩

/-- **A run as one of its connections hears it**: of all that happens, its messages count. -/
theorem view_of_runs {evs : List Event} {s : Plug} {o : Outcome} (h : Runs env build evs s o)
    (fd : ℤ) : ∃ frames, View build (messagesOn fd evs) (s.mapRecvBuf fd) o.1.isOk frames ∧
      framesOn fd o.2.log = framesOn fd s.log ++ frames := by
  induction h with
  | nil s => exact ⟨[], .nil, by simp⟩
  | @connection status fd' evs s o rest ih =>
    obtain ⟨frames, hview, hlog⟩ := ih
    rw [mapRecvBuf_newConnected] at hview
    rw [framesOn_newConnected] at hlog
    exact ⟨frames, hview, hlog⟩
  | @message fd' chunk evs s t o call rest ih =>
    obtain ⟨frames, hview, hlog⟩ := ih
    obtain ⟨frames', hdrain, hlog', hother⟩ := drain_of_call call
    by_cases hfd : fd' = fd
    · subst hfd
      refine ⟨frames' ++ frames, ?_, by rw [hlog, hlog', List.append_assoc]⟩
      rw [messagesOn_self]
      exact .call hdrain hview
    · obtain ⟨hbuf, hframes⟩ := hother fd (Ne.symm hfd)
      rw [messagesOn_ne hfd, ← hbuf]
      exact ⟨frames, hview, by rw [hlog, hframes]⟩
  | @stop fd' chunk evs s t e call =>
    obtain ⟨frames', hdrain, hlog', hother⟩ := drain_of_call call
    by_cases hfd : fd' = fd
    · subst hfd
      rw [messagesOn_self]
      exact ⟨frames', .stop hdrain, hlog'⟩
    · obtain ⟨-, hframes⟩ := hother fd (Ne.symm hfd)
      exact ⟨[], .halt, by simpa using hframes⟩

/-! ### What a connection leaves -/

lemma verdict_incomplete {buf : List UInt8} {n : ℤ} (h : verdict build buf = (.incomplete, n)) :
    buf.getD 0 0 = 0x68 ∧ (buf.length < 2 ∨ buf.length < build.charVal (buf.getD 1 0) + 2) := by
  unfold verdict fixFrame at h
  by_cases h0 : buf.getD 0 0 = 0x68
  · refine ⟨h0, ?_⟩
    rw [if_neg (not_not.mpr h0)] at h
    by_cases h1 : (buf.length : ℤ) < 2
    · exact .inl (by omega)
    · rw [if_neg h1] at h
      by_cases h2 : (buf.length : ℤ) < build.charVal (buf.getD 1 0) + 2
      · exact .inr h2
      · simp only [if_neg h2] at h
        simp at h
  · rw [if_pos h0] at h
    simp at h

lemma Drain.rest_waits {buf rest : List UInt8} {fs : List Frame} {ok : Bool}
    (h : Drain build buf ok fs rest) (hok : ok = true) :
    rest = [] ∨ ∃ n, verdict build rest = (.incomplete, n) := by
  induction h with
  | incomplete hv => exact .inr ⟨_, hv⟩
  | invalid hv => exact .inl rfl
  | fault hv => simp at hok
  | last hv hdrop => exact .inl rfl
  | next hv hdrop more ih => exact ih hok

/-- Between two messages a buffer is empty or holds the beginning of a frame. -/
lemma waits_of_runs {evs : List Event} {s t : Plug} (h : Runs env build evs s (.ok (), t)) (fd : ℤ)
    (hs : s.mapRecvBuf fd = [] ∨ ∃ n, verdict build (s.mapRecvBuf fd) = (.incomplete, n)) :
    t.mapRecvBuf fd = [] ∨ ∃ n, verdict build (t.mapRecvBuf fd) = (.incomplete, n) := by
  generalize ho : ((.ok (), t) : Outcome) = o at h
  induction h with
  | nil s =>
    obtain rfl : t = s := (Prod.mk.inj ho).2
    exact hs
  | connection rest ih => exact ih (by rwa [mapRecvBuf_newConnected]) ho
  | @message fd' chunk evs s u o call rest ih =>
    obtain ⟨frames, hdrain, -, hother⟩ := drain_of_call call
    refine ih ?_ ho
    by_cases hfd : fd = fd'
    · subst hfd
      exact hdrain.rest_waits rfl
    · rwa [(hother fd hfd).1]
  | stop call => simp at ho

/-! ### The second connection -/

/-- After `s`, the frames analysed on a new connection `fd` are, as far as its handlers return,
those that the same messages have analysed on a connection whose buffer was empty. -/
def Independent (env : Env R V) (build : Build) (fd : ℤ) (s : Plug) : Prop :=
  ∀ (past : List Event) (s' : Plug), Runs env build past Plug.init (.ok (), s') →
    s'.mapRecvBuf fd = [] →
    ∀ (evs evs' : List Event) (o o' : Outcome), Stays fd evs → Stays fd evs' →
      messagesOn fd evs = messagesOn fd evs' →
      Runs env build evs (newConnectedFunc .connect fd s) o →
      Runs env build evs' (newConnectedFunc .connect fd s') o' →
      Agree o.1.isOk (framesSince fd s o.2) o'.1.isOk (framesSince fd s' o'.2)

/-- A new connection hears its messages from the buffer it finds. -/
lemma view_of_connection {fd : ℤ} {s : Plug} {evs : List Event} {o : Outcome}
    (h : Runs env build evs (newConnectedFunc .connect fd s) o) :
    View build (messagesOn fd evs) (s.mapRecvBuf fd) o.1.isOk (framesSince fd s o.2) := by
  obtain ⟨frames, hview, hlog⟩ := view_of_runs h fd
  rw [mapRecvBuf_newConnected] at hview
  rw [framesOn_newConnected] at hlog
  rwa [framesSince_eq hlog]

/-- A frame that is analysed and left at that. -/
def idleFrame : Frame := [0x68, 0x04, 0x05, 0x00, 0x00, 0x00]

lemma getD_append_idleFrame (buf : List UInt8) (i : ℕ) :
    (buf ++ idleFrame).getD (buf.length + i) 0 = idleFrame.getD i 0 := by
  rw [List.getD_append_right _ _ _ _ (by omega), Nat.add_sub_cancel_left]

lemma charVal_lt (c : UInt8) : build.charVal c < 256 := by
  have hoctet := UInt8.toNat_lt c
  cases build
  · simp only [Build.charVal]
    split_ifs <;> omega
  · simp only [Build.charVal]
    omega

/-- A beginning that is completed by the idle frame is longer than one octet: after one octet the
length octet is the start of the frame. -/
lemma two_le_length {buf : List UInt8} (hne : buf ≠ []) {n : ℤ}
    (hv : verdict build (buf ++ idleFrame) = (.complete, n)) : 2 ≤ buf.length := by
  obtain ⟨-, -, hn, hle⟩ := verdict_complete.mp hv
  have hpos : 0 < buf.length := List.length_pos_iff.mpr hne
  by_contra hlt
  have h1 : buf.length = 1 := by omega
  have hbyte := getD_append_idleFrame buf 0
  rw [h1] at hbyte
  have hval : build.charVal (idleFrame.getD 0 0) = 104 := by
    cases build <;> rfl
  have hsix : (buf ++ idleFrame).length = 7 := by
    rw [List.length_append, h1]
    rfl
  rw [hbyte, hval] at hn
  omega

/-- The beginning of a frame takes away part of the frame that comes after it. -/
lemma take_ne_idleFrame {buf : List UInt8} (hne : buf ≠ []) {m n : ℤ}
    (hwait : verdict build buf = (.incomplete, m))
    (hv : verdict build (buf ++ idleFrame) = (.complete, n)) :
    (buf ++ idleFrame).take (toSize n) ≠ idleFrame ∧
      ∃ k, 0 < k ∧ (buf ++ idleFrame).drop (toSize n) = idleFrame.drop k := by
  obtain ⟨h0, hshort⟩ := verdict_incomplete hwait
  obtain ⟨-, -, hn, hle⟩ := verdict_complete.mp hv
  have h2 := two_le_length hne hv
  have hlen : (buf ++ idleFrame).length = buf.length + 6 := List.length_append
  rw [hlen] at hle
  have hbyte : (buf ++ idleFrame).getD 1 0 = buf.getD 1 0 :=
    List.getD_append _ _ _ _ (by omega)
  rw [hbyte] at hn
  have hlt : (buf.length : ℤ) < n := by
    rw [hn]
    exact hshort.resolve_left (by omega)
  have hval : build.charVal (buf.getD 1 0) < 256 := charVal_lt _
  have hsize : (toSize n : ℤ) = n := by
    rw [toSize_eq (by omega) (by omega), Int.toNat_of_nonneg (by omega)]
  refine ⟨fun htake => ?_, toSize n - buf.length, by omega, ?_⟩
  · -- the octet at the cut would be a start and one of the later octets of the idle frame
    have hcut : min (toSize n) (buf.length + 6) = 6 := by
      rw [← hlen, ← List.length_take, htake]
      rfl
    have hsame : ((buf ++ idleFrame).take (toSize n)).getD buf.length 0 =
        (buf ++ idleFrame).getD buf.length 0 := by
      rw [List.getD_eq_getElem?_getD, List.getElem?_take_of_lt (by omega),
        ← List.getD_eq_getElem?_getD]
    have hstart := getD_append_idleFrame buf 0
    rw [Nat.add_zero, ← hsame, htake] at hstart
    have hcases : buf.length = 2 ∨ buf.length = 3 ∨ buf.length = 4 ∨ buf.length = 5 := by
      omega
    rcases hcases with h | h | h | h <;> rw [h] at hstart <;> exact absurd hstart (by decide)
  · rw [List.drop_append, List.drop_eq_nil_of_le (by omega), List.nil_append]

lemma verdict_idleFrame : verdict build idleFrame = (.complete, 6) := by
  cases build <;> rfl

/-- Handling the idle frame ends, whether or not it is cut right. -/
lemma exists_call (env : Env R V) (build : Build) (fd : ℤ) (s : Plug)
    (hwait : s.mapRecvBuf fd = [] ∨ ∃ n, verdict build (s.mapRecvBuf fd) = (.incomplete, n)) :
    ∃ o, HandleMessage env build fd idleFrame s o := by
  set t := receive fd idleFrame s with ht
  have hbuf : t.mapRecvBuf fd = s.mapRecvBuf fd ++ idleFrame := Function.update_self _ _ _
  rcases hv : verdict build (t.mapRecvBuf fd) with ⟨_ | _ | _, n⟩
  · exact ⟨_, leaves_of_leave (handlePass_invalid env build hv)⟩
  · rcases handlePass_complete env build hv with ⟨hp, -⟩ | ⟨hp, -⟩
    · exact ⟨_, leaves_of_leave hp⟩
    · -- what is left after a frame does not start one
      have hmore := nonempty_of_again env hp
      have hdrop : (handleFrame env fd t (toSize n)).2.mapRecvBuf fd =
          (s.mapRecvBuf fd ++ idleFrame).drop (toSize n) := by
        rw [handleFrame_buf, Function.update_self, hbuf]
      rw [hdrop] at hmore
      have hrest : ∃ k, 0 < k ∧
          (s.mapRecvBuf fd ++ idleFrame).drop (toSize n) = idleFrame.drop k := by
        rw [hbuf] at hv
        rcases hwait with hnil | ⟨m, hm⟩
        · rw [hnil, List.nil_append] at hv ⊢
          obtain rfl : (6 : ℤ) = n := congrArg Prod.snd (verdict_idleFrame.symm.trans hv)
          exact ⟨6, by omega, rfl⟩
        · by_cases hnil : s.mapRecvBuf fd = []
          · rw [hnil] at hm
            exact absurd (verdict_incomplete hm).1 (by decide)
          · exact (take_ne_idleFrame hnil hm hv).2
      obtain ⟨k, hk, hrest⟩ := hrest
      have hinvalid : (verdict build (idleFrame.drop k)).1 = .invalid := by
        rw [verdict_invalid]
        rw [hrest] at hmore
        have hlt : k < 6 := by
          by_contra hge
          exact hmore (List.drop_eq_nil_of_le (Nat.le_of_not_lt hge))
        interval_cases k <;> decide
      have hv' : verdict build ((handleFrame env fd t (toSize n)).2.mapRecvBuf fd) =
          (.invalid, (verdict build (idleFrame.drop k)).2) := by
        rw [hdrop, hrest]
        exact Prod.ext hinvalid rfl
      exact ⟨_, (leaves_of_again hp).mpr (leaves_of_leave (handlePass_invalid env build hv'))⟩
  · exact ⟨_, leaves_of_leave (handlePass_incomplete env build hv)⟩

/-- On an empty buffer it is cut right, and the handler returns. -/
lemma call_idleFrame (env : Env R V) (build : Build) {fd : ℤ} {s : Plug}
    (h : s.mapRecvBuf fd = []) : ∃ t, HandleMessage env build fd idleFrame s (.ok (), t) := by
  have hbuf : (receive fd idleFrame s).mapRecvBuf fd = idleFrame := by
    simp [receive, setBuf, h]
  have hv : verdict build ((receive fd idleFrame s).mapRecvBuf fd) = (.complete, 6) := by
    rw [hbuf]
    exact verdict_idleFrame
  have hok : (handleFrame env fd (receive fd idleFrame s) (toSize 6)).1 = .ok () := by
    unfold handleFrame
    rw [hbuf]
    rfl
  rcases handlePass_complete env build hv with ⟨hp, -⟩ | ⟨hp, -⟩
  · exact ⟨(handleFrame env fd (receive fd idleFrame s) (toSize 6)).2,
      leaves_of_leave (hp.trans (congrArg Pass.leave (Prod.ext hok rfl)))⟩
  · refine absurd ?_ (nonempty_of_again env hp)
    rw [handleFrame_buf, Function.update_self, hbuf]
    rfl

lemma drain_idleFrame {ok : Bool} {fs : List Frame} {rest : List UInt8}
    (h : Drain build idleFrame ok fs rest) : fs = [idleFrame] := by
  have hv (n : ℤ) (hn : verdict build idleFrame = (.complete, n)) : n = 6 :=
    congrArg Prod.snd (hn.symm.trans verdict_idleFrame)
  cases h with
  | incomplete hn | invalid hn => simp [verdict_idleFrame] at hn
  | fault hn | last hn =>
    rw [hv _ hn]
    rfl
  | next hn hdrop =>
    rw [hv _ hn] at hdrop
    exact absurd rfl hdrop

lemma runs_of_call {fd : ℤ} {chunk : List UInt8} {s : Plug} {o : Outcome}
    (h : HandleMessage env build fd chunk s o) : Runs env build [.message fd chunk] s o := by
  obtain ⟨e | ⟨⟩, t⟩ := o
  · exact .stop h
  · exact .message h (.nil t)

/-- What waits in the buffer is taken for the beginning of the first frame. -/
lemma not_independent {past : List Event} {s : Plug}
    (hrun : Runs env build past Plug.init (.ok (), s)) {fd : ℤ} (hne : s.mapRecvBuf fd ≠ []) :
    ¬ Independent env build fd s := by
  intro h
  obtain ⟨m, hm⟩ := (waits_of_runs hrun fd (.inl rfl)).resolve_left hne
  -- the same message on a connection that finds nothing, and on the one that does not
  have hempty : (newConnectedFunc .connect fd Plug.init).mapRecvBuf fd = [] := rfl
  obtain ⟨t, ht⟩ := call_idleFrame env build hempty
  obtain ⟨o, ho⟩ := exists_call env build fd (newConnectedFunc .connect fd s)
    (.inr ⟨m, by rwa [mapRecvBuf_newConnected]⟩)
  have hstays : Stays fd [.message fd idleFrame] := by
    intro status
    simp
  have hagree := h [] Plug.init (.nil _) rfl _ _ _ _ hstays hstays rfl (runs_of_call ho)
    (runs_of_call ht)
  obtain ⟨fs, hdrain, hlog, -⟩ := drain_of_call ho
  obtain ⟨gs, hdrain', hlog', -⟩ := drain_of_call ht
  rw [framesOn_newConnected] at hlog hlog'
  rw [framesSince_eq hlog, framesSince_eq hlog'] at hagree
  rw [mapRecvBuf_newConnected] at hdrain hdrain'
  obtain rfl := drain_idleFrame hdrain'
  have hle : fs <+: [idleFrame] := hagree.right rfl
  have hge : o.1.isOk = true → [idleFrame] <+: fs := hagree.left
  have hfirst (n : ℤ) (hv : verdict build (s.mapRecvBuf fd ++ idleFrame) = (.complete, n))
      (gs : List Frame) :
      ¬ (s.mapRecvBuf fd ++ idleFrame).take (toSize n) :: gs <+: [idleFrame] := by
    intro hpre
    exact (take_ne_idleFrame hne hm hv).1 (List.cons_prefix_cons.mp hpre).1
  generalize o.1.isOk = ok at hdrain hge
  generalize o.2.mapRecvBuf fd = rest at hdrain
  cases hdrain with
  | incomplete hv | invalid hv => simpa using hge rfl
  | fault hv | last hv | next hv => exact hfirst _ hv _ hle

/-- **Connections with a reused descriptor** are independent of what was received before exactly
if the earlier connections left nothing in the buffer. -/
theorem independent_iff {past : List Event} {s : Plug}
    (hrun : Runs env build past Plug.init (.ok (), s)) (fd : ℤ) :
    Independent env build fd s ↔ s.mapRecvBuf fd = [] := by
  constructor
  · intro h
    by_contra hne
    exact not_independent hrun hne h
  · intro hs past' s' _ hs' evs evs' o o' _ _ hmsg h h'
    have hview := view_of_connection h
    have hview' := view_of_connection h'
    rw [hs, hmsg] at hview
    rw [hs'] at hview'
    exact hview.agree hview'

/-- A connection that sends a whole frame leaves nothing. -/
theorem independent_after_frame : ∃ s,
    Runs bareEnv .x86 [.connection .connect 5, .message 5 (sendUFrame testfrAct),
      .connection .disconnect 5] Plug.init (.ok (), s) ∧ Independent bareEnv .x86 5 s := by
  have hrun : ∃ s, Runs bareEnv .x86 [.connection .connect 5, .message 5 (sendUFrame testfrAct),
      .connection .disconnect 5] Plug.init (.ok (), s) ∧ s.mapRecvBuf 5 = [] :=
    ⟨_, .connection (.message (leaves_of_leave rfl) (.connection (.nil _))), rfl⟩
  obtain ⟨s, hs, hempty⟩ := hrun
  exact ⟨s, hs, (independent_iff hs 5).mpr hempty⟩

/-- A connection that sends the first two octets of a frame and closes. -/
theorem dependent_after_part : ∃ s,
    Runs bareEnv .x86 [.connection .connect 5, .message 5 [0x68, 0x04],
      .connection .disconnect 5] Plug.init (.ok (), s) ∧ ¬ Independent bareEnv .x86 5 s := by
  have hrun : ∃ s, Runs bareEnv .x86 [.connection .connect 5, .message 5 [0x68, 0x04],
      .connection .disconnect 5] Plug.init (.ok (), s) ∧ s.mapRecvBuf 5 ≠ [] :=
    ⟨_, .connection (.message (leaves_of_leave rfl) (.connection (.nil _))), by decide⟩
  obtain ⟨s, hs, hne⟩ := hrun
  exact ⟨s, hs, not_independent hs hne⟩

end DataEngine.TransIEC104
