import DataEngine.Plug.IEC104.Run
import DataEngine.Rational

/-!
The sequence numbers of the plug-in.

Both counters are single members, shared by all connections and never reset, and the octets
they are written to are read back right below 128 only. The numbers are those of the protocol
in runs that stay on one connection and are short enough, and for N(S) hold no frame after a
clock command; runs beyond that are shown in which they are not.
-/

namespace DataEngine.TransIEC104

open Lib.Trace

/-! ### The rule of the protocol -/

def Ev.opens (fd : ℤ) (e : Ev) : Bool := e = .connect fd

def Ev.recvI : Ev → Bool
  | .analysed _ f => isI f
  | _ => false

def Ev.sentIOn (fd : ℤ) : Ev → Bool
  | .sent fd' f => fd' = fd && isI f
  | _ => false

def Ev.recvIOn (fd : ℤ) : Ev → Bool
  | .analysed fd' f => fd' = fd && isI f
  | _ => false

/-- The I-format frames sent on a connection since it was opened. -/
def sentOn (fd : ℤ) (log : List Ev) : ℕ := since (Ev.opens fd) (Ev.sentIOn fd) log

/-- The I-format frames received on a connection since it was opened. -/
def receivedOn (fd : ℤ) (log : List Ev) : ℕ := since (Ev.opens fd) (Ev.recvIOn fd) log

/-- Every I-format frame carries how many were sent on its connection before it. -/
def Numbered (log : List Ev) : Prop :=
  Each (fun pre e => ∀ fd f, e = .sent fd f → isI f = true →
    sendSeq f = sentOn fd pre % 32768) log

/-- Every S-format and I-format frame carries how many I-format frames were received on its
connection before it. -/
def Acknowledged (log : List Ev) : Prop :=
  Each (fun pre e => ∀ fd f, e = .sent fd f → isU f = false →
    recvSeq f = receivedOn fd pre % 32768) log

/-- Two frames of a kind are received on one connection, which is not opened in between. -/
def oneConnection (kind : Frame → Bool) : Ev → Ev → Bool
  | .analysed fd f, .connect fd' => !kind f || fd' != fd
  | .analysed fd f, .analysed fd' g => !(kind f && kind g) || fd' = fd
  | _, _ => true

section OneConnection

variable {kind : Frame → Bool} {fd fd' : ℤ} {f g : Frame}

lemma eq_of_oneConnection (h : oneConnection kind (.analysed fd f) (.analysed fd' g) = true)
    (hf : kind f = true) (hg : kind g = true) : fd' = fd := by
  simpa [oneConnection, hf, hg] using h

lemma not_opens_of_oneConnection {e : Ev} (h : oneConnection kind (.analysed fd f) e = true)
    (hf : kind f = true) : e.opens fd = false := by
  cases e with
  | connect fd' =>
    have hne : fd' ≠ fd := by simpa [oneConnection, hf] using h
    simpa [Ev.opens] using hne
  | _ => simp [Ev.opens]

end OneConnection

/-! ### N(R) -/

/-- The run receives all its I-format frames on one connection, at most 127 of them. -/
def OneReceiver (log : List Ev) : Prop :=
  (log.Pairwise fun a b => oneConnection isI a b) ∧ log.countP Ev.recvI ≤ 127

instance (log : List Ev) : Decidable (OneReceiver log) := inferInstanceAs (Decidable (_ ∧ _))

lemma OneReceiver.of_append {a b : List Ev} (h : OneReceiver (a ++ b)) : OneReceiver a := by
  refine ⟨(List.pairwise_append.mp h.1).1, ?_⟩
  have := h.2
  rw [List.countP_append] at this
  omega

lemma Answer.not_recvI {n : ℕ} {s t : Plug} {evs : List Ev} (h : Answer n s t evs) {e : Ev}
    (he : e ∈ evs) : e.recvI = false := by
  rcases h.mem he with ⟨f, rfl⟩ | ⟨time, rfl⟩ <;> rfl

lemma Answer.not_opens {n : ℕ} {s t : Plug} {evs : List Ev} (h : Answer n s t evs) {e : Ev}
    (he : e ∈ evs) (fd : ℤ) : e.opens fd = false := by
  rcases h.mem he with ⟨f, rfl⟩ | ⟨time, rfl⟩ <;> simp [Ev.opens]

lemma Answer.countP_recvI {n : ℕ} {s t : Plug} {evs : List Ev} (h : Answer n s t evs) :
    evs.countP Ev.recvI = 0 := by
  rw [List.countP_eq_zero]
  intro e he
  simp [h.not_recvI he]

/-- When the last frame received is of I-format, all were received on its connection. -/
lemma receivedOn_eq {log : List Ev} {fd : ℤ} {f : Frame}
    (h : OneReceiver (log ++ [Ev.analysed fd f])) (hf : isI f = true) :
    receivedOn fd (log ++ [Ev.analysed fd f]) = (log ++ [Ev.analysed fd f]).countP Ev.recvI := by
  have hon : ∀ e ∈ log ++ [Ev.analysed fd f], e.recvIOn fd = e.recvI := by
    obtain ⟨-, -, hlast⟩ := List.pairwise_append.mp h.1
    intro e he
    rw [List.mem_append] at he
    rcases he with he | he
    · have hpair := hlast e he (.analysed fd f) (by simp)
      cases e with
      | analysed fd' g =>
        by_cases hg : isI g = true
        · have hfd : fd = fd' := eq_of_oneConnection hpair hg hf
          simp [Ev.recvIOn, Ev.recvI, hfd]
        · simp [Ev.recvIOn, Ev.recvI, hg]
      | _ => rfl
    · obtain rfl : e = .analysed fd f := by simpa using he
      simp [Ev.recvIOn, Ev.recvI]
  unfold receivedOn
  rw [since_eq_countP]
  · refine List.countP_congr fun e he => ?_
    rw [hon e he]
  · intro e he
    cases e <;> simp_all [Ev.recvIOn, Ev.opens]
  · refine h.1.imp fun {a b} hab ha => ?_
    cases a with
    | analysed fd' g =>
      obtain ⟨rfl, hg⟩ : fd' = fd ∧ isI g = true := by simpa [Ev.recvIOn] using ha
      exact not_opens_of_oneConnection hab hg
    | _ => simp [Ev.recvIOn] at ha

variable {R V : Type} [Double R] (env : Env R V) (build : Build)

/-- The receive counter counts the I-format frames of all connections. -/
lemma recvIdx_run (moves : List Move) (h : (run env build moves).ctl ≠ .stopped) :
    (run env build moves).plug.recvIdx =
      (run env build moves).plug.log.countP Ev.recvI % 65536 := by
  induction moves using List.reverseRecOn with
  | nil => rfl
  | append_singleton moves move ih =>
    rw [run_snoc] at h ⊢
    cases step_moved env build (run env build moves) move with
    | quiet log sendIdx recvIdx ctl => rw [log, recvIdx, ih (ctl h)]
    | connection e he log sendIdx recvIdx ctl =>
      rw [log, recvIdx, ih ctl, List.countP_append]
      obtain ⟨fd, rfl | rfl⟩ := he <;> rfl
    | analysed s f evs log sendIdx recvIdx handled ctl length =>
      rw [handled.answer.recvIdx, handled.answer.log, List.countP_append,
        handled.answer.countP_recvI, Nat.add_zero]
      simp only [heard, log, recvIdx, length h, and_true, ih ctl, List.countP_append]
      by_cases hi : isI f = true <;> simp [hi, Ev.recvI]

variable {env} {log evs : List Ev} {s t : Plug} {f : Frame}

/-- What has been received on a connection does not change while a frame is answered. -/
lemma receivedOn_reply {n : ℕ} (h : Answer n s t evs) {pre : List Ev} (hpre : ∀ e ∈ pre, e ∈ evs)
    (fd : ℤ) (log : List Ev) : receivedOn fd (log ++ pre) = receivedOn fd log := by
  have hz : pre.countP (Ev.recvIOn fd) = 0 := by
    rw [List.countP_eq_zero]
    intro e he
    rcases h.mem (hpre e he) with ⟨f, rfl⟩ | ⟨time, rfl⟩ <;> simp [Ev.recvIOn]
  unfold receivedOn
  rw [since_append_unmarked fun e he => h.not_opens (hpre e he) fd, hz, Nat.add_zero]

/-- The answers to a frame acknowledge what was received, if the counter has counted all of
it. -/
lemma acknowledged_reply (handled : Handled env f s t evs)
    (hone : OneReceiver (log ++ [Ev.analysed s.fd f]))
    (hcounter : s.recvIdx = log.countP Ev.recvI % 65536) :
    Each (fun pre e => ∀ fd g, e = .sent fd g → isU g = false →
      recvSeq g = receivedOn fd (log ++ [Ev.analysed s.fd f] ++ pre) % 32768) evs := by
  refine handled.answer.each.imp fun pre e post hevs he fd g hsent hg => ?_
  subst hsent
  obtain ⟨rfl, -, hack⟩ := he
  have hi : isI f = true ∧ 2 ≤ f.length := by
    by_contra hn
    have := handled.quiet hn s.fd g (by rw [hevs]; simp [heard])
    simp [this] at hg
  have hfew := hone.2
  have hidx : (heard f s).recvIdx = (log ++ [Ev.analysed s.fd f]).countP Ev.recvI := by
    simp only [List.countP_append, List.countP_singleton, Ev.recvI, hi.1, if_true] at hfew ⊢
    simp only [heard, hi, and_self, if_true, hcounter]
    omega
  have hack := hack hg
  rw [hidx] at hack
  have hreceived : receivedOn s.fd (log ++ [Ev.analysed s.fd f] ++ pre) =
      (log ++ [Ev.analysed s.fd f]).countP Ev.recvI := by
    rw [receivedOn_reply handled.answer (fun e he => by rw [hevs]; simp [he]),
      receivedOn_eq hone hi.1]
  rw [recvSeq_of_lt hack (by omega)]
  show _ = receivedOn s.fd (log ++ [Ev.analysed s.fd f] ++ pre) % 32768
  rw [hreceived]
  omega

variable (env)

/-- **N(R)**: in every run that receives its I-format frames on one connection, at most 127 of
them, every frame acknowledges what was received on its connection. -/
theorem acknowledged_run (moves : List Move)
    (h : OneReceiver (run env build moves).plug.log) :
    Acknowledged (run env build moves).plug.log := by
  induction moves using List.reverseRecOn with
  | nil => exact each_nil
  | append_singleton moves move ih =>
    rw [run_snoc] at h ⊢
    cases step_moved env build (run env build moves) move with
    | quiet log sendIdx recvIdx ctl =>
      rw [log] at h ⊢
      exact ih h
    | connection e he log sendIdx recvIdx ctl =>
      rw [log] at h ⊢
      refine each_snoc.mpr ⟨ih h.of_append, fun fd f hs => ?_⟩
      obtain ⟨fd', rfl | rfl⟩ := he <;> simp at hs
    | analysed s f evs log sendIdx recvIdx handled ctl length =>
      have hlog := handled.answer.log
      simp only [heard, log] at hlog
      rw [hlog] at h ⊢
      have hpre := h.of_append
      refine each_append.mpr ⟨each_snoc.mpr ⟨ih hpre.of_append, by simp⟩, ?_⟩
      refine acknowledged_reply handled hpre ?_
      rw [recvIdx, recvIdx_run env build moves ctl]

/-- A plug-in that was given no point tables and no settings. -/
def bareEnv : Env ℚ Unit where
  cfg := ConfigParse.empty
  name := "T"
  getTransMultiValue := fun _ _ _ _ num => .ok (List.replicate num.toNat ())
  asUInt8 := fun _ => .ok 0
  floatOctets := fun _ => .ok fun _ => 0
  shortOctets := fun _ => .ok fun _ => 0
  getSysTime := fun _ => ⟨0, 0, 0, 0, 0, 0, 0, 0⟩
  longShift := fun _ _ => 0

/-- An I-format frame that is acknowledged and nothing more. -/
def emptyI : Frame := [0x68, 0x04, 0x00, 0x00, 0x00, 0x00]

/-- One frame in one message. -/
def arrive (fd : ℤ) (f : Frame) : List Move := [.message fd f, .pass]

/-- Two frames on a connection opened once are acknowledged as one and two. -/
theorem acknowledged_two :
    Acknowledged (run bareEnv .x86
      (.connection .connect 5 :: arrive 5 emptyI ++ arrive 5 emptyI)).plug.log :=
  acknowledged_run _ _ _ (by decide)

/-- The first frame on a second connection is acknowledged as the second. -/
theorem second_connection_misread :
    ¬ Acknowledged (run bareEnv .x86
      (.connection .connect 5 :: arrive 5 emptyI ++
        .connection .connect 6 :: arrive 6 emptyI)).plug.log := by
  intro h
  have hlog : (run bareEnv .x86
      (Move.connection .connect 5 :: arrive 5 emptyI ++
        Move.connection .connect 6 :: arrive 6 emptyI)).plug.log =
      [Ev.connect 5, .analysed 5 emptyI, .sent 5 [0x68, 0x04, 0x01, 0x00, 0x02, 0x00],
        .connect 6, .analysed 6 emptyI] ++ [Ev.sent 6 [0x68, 0x04, 0x01, 0x00, 0x04, 0x00]] := by
    decide
  rw [hlog, Acknowledged, each_snoc] at h
  have := h.2 6 _ rfl (by decide)
  revert this
  decide

/-! ### N(S) -/

def Ev.asksGI : Ev → Bool
  | .analysed _ f => isGI f
  | _ => false

def Ev.asksClock : Ev → Bool
  | .analysed _ f => isClock f
  | _ => false

/-- No command follows a clock command. -/
def clockLast : Ev → Ev → Bool
  | .analysed _ f, .analysed _ g => !(isClock f && isCommand g)
  | _, _ => true

/-- The run receives all its commands on one connection, a clock command as the last of them,
and they ask for at most 128 frames. -/
def OneConversation (log : List Ev) : Prop :=
  (log.Pairwise fun a b => oneConnection isCommand a b) ∧
  (log.Pairwise fun a b => clockLast a b) ∧
  log.countP Ev.asksGI * giFrames env + log.countP Ev.asksClock ≤ 128

instance (log : List Ev) : Decidable (OneConversation env log) :=
  inferInstanceAs (Decidable (_ ∧ _ ∧ _))

variable {env} in
lemma OneConversation.of_append {a b : List Ev} (h : OneConversation env (a ++ b)) :
    OneConversation env a := by
  obtain ⟨h1, h2, h3⟩ := h
  refine ⟨(List.pairwise_append.mp h1).1, (List.pairwise_append.mp h2).1, le_trans ?_ h3⟩
  rw [List.countP_append, List.countP_append]
  gcongr <;> omega

lemma iterate_nextSendIdx {n : ℕ} (h : n ≤ 32767) : nextSendIdx^[n] 0 = n := by
  induction n with
  | zero => rfl
  | succ n ih =>
    rw [Function.iterate_succ_apply', ih (by omega), nextSendIdx, Nat.mod_eq_of_lt (by omega),
      if_neg (by omega)]

def Ev.commandOn (fd : ℤ) : Ev → Bool
  | .analysed fd' f => fd' = fd && isCommand f
  | _ => false

/-- What holds of the I-format frames sent in every run: they answer commands of their
connection, no more of them than the commands ask for, and up to a clock command the send
counter counts them. -/
structure Counted (m : Machine) : Prop where
  answers : ∀ fd, Each (fun pre e => e.sentIOn fd = true → ∃ a ∈ pre, a.commandOn fd = true)
    m.plug.log
  few : m.plug.log.countP Ev.sentI ≤
    m.plug.log.countP Ev.asksGI * giFrames env + m.plug.log.countP Ev.asksClock
  sendIdx : m.plug.log.countP Ev.asksClock = 0 →
    m.plug.sendIdx = nextSendIdx^[m.plug.log.countP Ev.sentI] 0

lemma Answer.countP_asks {n : ℕ} {s t : Plug} {evs : List Ev} (h : Answer n s t evs) :
    evs.countP Ev.asksGI = 0 ∧ evs.countP Ev.asksClock = 0 := by
  rw [List.countP_eq_zero, List.countP_eq_zero]
  constructor <;> intro e he
  all_goals rcases h.mem he with ⟨f, rfl⟩ | ⟨time, rfl⟩ <;> simp [Ev.asksGI, Ev.asksClock]

/-- Only a command is answered with I-format frames. -/
lemma isCommand_of_sentI {n : ℕ} {f : Frame} {s t : Plug} {evs : List Ev}
    (h : Answer n s t evs) (hn : n = replyFrames env f) {e : Ev} (he : e ∈ evs)
    (hi : e.sentI = true) : isCommand f = true := by
  by_contra hc
  have hz : n = 0 := by
    simp only [isCommand, Bool.or_eq_true, not_or, Bool.not_eq_true] at hc
    simp [hn, replyFrames, hc]
  have hfew := h.few
  rw [hz, Nat.le_zero, List.countP_eq_zero] at hfew
  exact hfew e he hi

variable {env} in
lemma Moved.counted {m m' : Machine} (h : Moved env m m') (hm : Counted env m) :
    Counted env m' := by
  cases h with
  | quiet log sendIdx recvIdx ctl =>
    exact ⟨by rw [log]; exact hm.answers, by rw [log]; exact hm.few,
      by rw [log, sendIdx]; exact hm.sendIdx⟩
  | connection e he log sendIdx recvIdx ctl =>
    have hz : e.sentI = false ∧ e.asksGI = false ∧ e.asksClock = false ∧
        ∀ fd, e.sentIOn fd = false := by
      obtain ⟨fd, rfl | rfl⟩ := he <;> exact ⟨rfl, rfl, rfl, fun _ => rfl⟩
    refine ⟨fun fd => ?_, ?_, ?_⟩
    · rw [log, each_snoc]
      exact ⟨hm.answers fd, fun h => by simp [hz] at h⟩
    · simpa [log, List.countP_append, hz] using hm.few
    · simpa [log, List.countP_append, hz, sendIdx] using hm.sendIdx
  | analysed s f evs log sendIdx recvIdx handled ctl length =>
    have hlog := handled.answer.log
    simp only [heard, log] at hlog
    obtain ⟨hgi, hclock⟩ := handled.answer.countP_asks
    refine ⟨fun fd => ?_, ?_, ?_⟩
    · rw [hlog, each_append, each_snoc]
      refine ⟨⟨hm.answers fd, fun h => by simp [Ev.sentIOn] at h⟩, ?_⟩
      refine handled.answer.each.imp fun pre e post hevs he hi => ?_
      cases e with
      | sent fd' g =>
        obtain ⟨rfl, hg⟩ : fd' = fd ∧ isI g = true := by simpa [Ev.sentIOn] using hi
        obtain ⟨rfl, -⟩ := he
        have hc := isCommand_of_sentI env handled.answer rfl (e := .sent (heard f s).fd g)
          (by rw [hevs]; simp) hg
        exact ⟨.analysed s.fd f, by simp, by simp [Ev.commandOn, heard, hc]⟩
      | _ => simp [Ev.sentIOn] at hi
    · have hfew := handled.answer.few
      have hold := hm.few
      rw [hlog]
      simp only [List.countP_append, List.countP_singleton, hgi, hclock, Ev.sentI, Ev.asksGI,
        Ev.asksClock, replyFrames] at hfew ⊢
      by_cases h1 : isGI f = true <;> by_cases h2 : isClock f = true <;>
        simp only [h1, h2, if_true, if_false, Bool.false_eq_true, Nat.add_mul, Nat.one_mul,
          Nat.zero_mul] at hfew ⊢ <;> omega
    · intro hz
      rw [hlog] at hz ⊢
      simp only [List.countP_append, List.countP_singleton, hclock, Ev.asksClock] at hz
      have hc : isClock f = false := by
        by_contra hc
        simp only [Bool.not_eq_false] at hc
        simp only [hc, if_true] at hz
        omega
      rw [handled.numbered hc, sendIdx, hm.sendIdx (by omega), ← Function.iterate_add_apply]
      congr 1
      simp only [List.countP_append, List.countP_singleton, Ev.sentI, Bool.false_eq_true, if_false]
      omega

lemma counted_run (moves : List Move) : Counted env (run env build moves) := by
  induction moves using List.reverseRecOn with
  | nil => exact ⟨fun _ => each_nil, by simp [Machine.init, Plug.init], fun _ => rfl⟩
  | append_singleton moves move ih =>
    rw [run_snoc]
    exact (step_moved env build _ move).counted ih

/-- When the last frame received is a command, all I-format frames were sent on its
connection since it was opened. -/
lemma sentOn_eq {m : Machine} (hm : Counted env m) {fd : ℤ} {f : Frame} (hf : isCommand f = true)
    (h : (m.plug.log ++ [Ev.analysed fd f]).Pairwise fun a b => oneConnection isCommand a b) :
    sentOn fd (m.plug.log ++ [Ev.analysed fd f]) = m.plug.log.countP Ev.sentI := by
  obtain ⟨hlog, -, hlast⟩ := List.pairwise_append.mp h
  have hon : ∀ e ∈ m.plug.log, e.sentIOn fd = e.sentI := by
    intro e he
    cases e with
    | sent fd' g =>
      by_cases hg : isI g = true
      swap
      · simp [Ev.sentIOn, Ev.sentI, hg]
      obtain ⟨pre, post, hp⟩ := List.append_of_mem he
      obtain ⟨a, ha, hc⟩ := hm.answers fd' pre _ post hp (by simp [Ev.sentIOn, hg])
      have hpair := hlast a (by rw [hp]; simp [ha]) (.analysed fd f) (by simp)
      cases a with
      | analysed fd'' f' =>
        obtain ⟨rfl, hf'⟩ : fd'' = fd' ∧ isCommand f' = true := by simpa [Ev.commandOn] using hc
        have hfd : fd = fd'' := eq_of_oneConnection hpair hf' hf
        simp [Ev.sentIOn, Ev.sentI, hfd]
      | _ => simp [Ev.commandOn] at hc
    | _ => rfl
  have hopen : m.plug.log.Pairwise fun a b => a.sentIOn fd = true → b.opens fd = false := by
    refine pairwise_of_cause (hm.answers fd) (hlog.imp fun {a b} hab ha => ?_)
    cases a with
    | analysed fd' g =>
      obtain ⟨rfl, hg⟩ : fd' = fd ∧ isCommand g = true := by simpa [Ev.commandOn] using ha
      exact not_opens_of_oneConnection hab hg
    | _ => simp [Ev.commandOn] at ha
  rw [sentOn, since_append_unmarked (by simp [Ev.opens]), since_eq_countP _ hopen]
  · have hz : List.countP (Ev.sentIOn fd) [.analysed fd f] = 0 := rfl
    rw [hz, Nat.add_zero]
    refine List.countP_congr fun e he => ?_
    rw [hon e he]
  · intro e he
    cases e <;> simp_all [Ev.sentIOn, Ev.opens]

omit [Double R] in
/-- The I-format frames of an answer are all sent on the connection of the frame. -/
lemma countP_sentIOn {n : ℕ} (h : Answer n s t evs) {pre : List Ev} (hpre : ∀ e ∈ pre, e ∈ evs) :
    pre.countP (Ev.sentIOn s.fd) = pre.countP Ev.sentI := by
  refine List.countP_congr fun e he => ?_
  rcases h.mem (hpre e he) with ⟨f, rfl⟩ | ⟨time, rfl⟩
  · simp [Ev.sentIOn, Ev.sentI]
  · rfl

/-- No clock command has been received before another command. -/
lemma no_clock_before (h : (log ++ [Ev.analysed s.fd f]).Pairwise fun a b => clockLast a b)
    (hc : isCommand f = true) : log.countP Ev.asksClock = 0 := by
  rw [List.countP_eq_zero]
  intro a ha hac
  have hpair := (List.pairwise_append.mp h).2.2 a ha (.analysed s.fd f) (by simp)
  cases a with
  | analysed fd' f' =>
    have hf' : isClock f' = true := hac
    simp [clockLast, hf', hc] at hpair
  | _ => simp [Ev.asksClock] at hac

/-- The answers to a frame are numbered, if they are among the first 128 frames sent. -/
lemma numbered_reply {m : Machine} (hm : Counted env m) (handled : Handled env f s t evs)
    (hone : OneConversation env (m.plug.log ++ [Ev.analysed s.fd f]))
    (hcounter : s.sendIdx = m.plug.sendIdx)
    (hfew : (m.plug.log ++ [Ev.analysed s.fd f] ++ evs).countP Ev.sentI ≤ 128) :
    Each (fun pre e => ∀ fd g, e = .sent fd g → isI g = true →
      sendSeq g = sentOn fd (m.plug.log ++ [Ev.analysed s.fd f] ++ pre) % 32768) evs := by
  refine handled.answer.each.imp fun pre e post hevs he fd g hsent hg => ?_
  subst hsent
  obtain ⟨rfl, hidx, -⟩ := he
  have hc : isCommand f = true := isCommand_of_sentI env handled.answer rfl
    (e := .sent (heard f s).fd g) (by rw [hevs]; simp) hg
  have hmem : ∀ e ∈ pre, e ∈ evs := fun e he => by rw [hevs]; simp [he]
  -- without a clock command the counter is the number of frames sent
  have hidx := hidx hg
  rw [show (heard f s).sendIdx = s.sendIdx from rfl, hcounter,
    hm.sendIdx (no_clock_before hone.2.1 hc), ← Function.iterate_add_apply] at hidx
  have hlt : pre.countP Ev.sentI + m.plug.log.countP Ev.sentI < 128 := by
    have hevsum : evs.countP Ev.sentI = pre.countP Ev.sentI + 1 + post.countP Ev.sentI := by
      have hsentI : (Ev.sent (heard f s).fd g).sentI = true := hg
      rw [hevs, List.countP_append, List.countP_cons_of_pos hsentI]
      omega
    rw [List.countP_append, List.countP_append, hevsum] at hfew
    omega
  rw [iterate_nextSendIdx (by omega)] at hidx
  have hsent : sentOn s.fd (m.plug.log ++ [Ev.analysed s.fd f] ++ pre) =
      m.plug.log.countP Ev.sentI + pre.countP Ev.sentI := by
    have hon : pre.countP (Ev.sentIOn s.fd) = pre.countP Ev.sentI :=
      countP_sentIOn handled.answer hmem
    rw [sentOn, since_append_unmarked fun e he => handled.answer.not_opens (hmem e he) s.fd, hon]
    congr 1
    exact sentOn_eq env hm hc hone.1
  rw [sendSeq_of_lt hidx hlt]
  show _ = sentOn s.fd (m.plug.log ++ [Ev.analysed s.fd f] ++ pre) % 32768
  rw [hsent]
  omega

/-- **N(S)**: in every run that receives its commands on one connection, a clock command as
the last of them, and that asks for at most 128 frames, every I-format frame carries how many
were sent on its connection before it. -/
theorem numbered_run (moves : List Move)
    (h : OneConversation env (run env build moves).plug.log) :
    Numbered (run env build moves).plug.log := by
  induction moves using List.reverseRecOn with
  | nil => exact each_nil
  | append_singleton moves move ih =>
    have hm' := counted_run env build (moves ++ [move])
    rw [run_snoc] at h hm' ⊢
    cases step_moved env build (run env build moves) move with
    | quiet log sendIdx recvIdx ctl =>
      rw [log] at h ⊢
      exact ih h
    | connection e he log sendIdx recvIdx ctl =>
      rw [log] at h ⊢
      refine each_snoc.mpr ⟨ih h.of_append, fun fd f hs => ?_⟩
      obtain ⟨fd', rfl | rfl⟩ := he <;> simp at hs
    | analysed s f evs log sendIdx recvIdx handled ctl length =>
      have hfew := hm'.few.trans h.2.2
      have hlog := handled.answer.log
      simp only [heard, log] at hlog
      rw [hlog] at h hfew ⊢
      have hpre := h.of_append
      refine each_append.mpr ⟨each_snoc.mpr ⟨ih hpre.of_append, by simp⟩, ?_⟩
      exact numbered_reply env (counted_run env build moves) handled hpre sendIdx hfew

/-- A general interrogation and a clock command. -/
def giCommand : Frame :=
  [0x68, 0x0E, 0x00, 0x00, 0x00, 0x00, 100, 1, 6, 0, 1, 0, 0, 0, 0, 20]

def clockCommand : Frame :=
  [0x68, 0x14, 0x00, 0x00, 0x00, 0x00, 103, 1, 6, 0, 1, 0, 0, 0, 0, 0, 0, 0, 0, 1, 1, 25]

/-- Two interrogations and a clock command on a connection opened once. -/
theorem numbered_conversation :
    Numbered (run bareEnv .x86 (.connection .connect 5 :: arrive 5 giCommand ++
      arrive 5 giCommand ++ arrive 5 clockCommand)).plug.log :=
  numbered_run _ _ _ (by decide +kernel)

/-- The confirmations of two clock commands both carry number 0. -/
theorem second_clock_misnumbered :
    ¬ Numbered (run bareEnv .x86 (.connection .connect 5 :: arrive 5 clockCommand ++
      arrive 5 clockCommand)).plug.log := by
  intro h
  have hlog : ∃ pre post, (run bareEnv .x86 (Move.connection .connect 5 :: arrive 5 clockCommand ++
      arrive 5 clockCommand)).plug.log = pre ++ Ev.sent 5 ([0x68, 0x14, 0x00, 0x00, 0x04, 0x00] ++
        [103, 1, 7, 0, 1, 0, 0, 0, 0, 0, 0, 0, 0, 1, 1, 25]) :: post ∧ sentOn 5 pre = 1 :=
    ⟨(run bareEnv .x86 (Move.connection .connect 5 :: arrive 5 clockCommand ++
      arrive 5 clockCommand)).plug.log.take 7, [.sent 5 [0x68, 0x04, 0x01, 0x00, 0x04, 0x00]],
      by decide⟩
  obtain ⟨pre, post, hlog, hone⟩ := hlog
  have := h pre _ post hlog 5 _ rfl (by decide)
  rw [hone] at this
  revert this
  decide

end DataEngine.TransIEC104
