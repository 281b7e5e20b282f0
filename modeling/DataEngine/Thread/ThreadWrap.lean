import DataEngine.Lib.Machine
import DataEngine.Semaphore

/-!
One `ThreadWrap` between its three parties: the thread that runs the function, the controller
that starts, stops, puts to sleep and wakes it, and the monitor that looks for time-outs.

All three store into `m_state` without asking. Each access to a member is a move of its own, and
a reading of the clock is one too.
-/

namespace DataEngine.ThreadWrap

open Lib.Machine Lib.Trace

inductive ThreadState where
  | unstart | normal | sleep | stop | timeout | done
  deriving DecidableEq

/-- What is remembered: the values stored into `m_state` and the calls of `looping`. -/
inductive Ev where
  | stored (v : ThreadState)
  | called
  | returned (b : Bool)
  deriving DecidableEq

/-- Where the thread is, named by its next access. -/
inductive Worker where
  | absent
  /-- in `run`, about to store `NORMAL` -/
  | start
  /-- in `m_funcWrap`, outside `looping` -/
  | body
  | readSleep | toSleep | pend | checkSleep | toAwake
  | now
  | stamp (now : ℤ)
  | checkTimeOut | toNormal | result
  /-- in `run`, about to store `DONE` -/
  | leave
  | clearOut
  | gone
  deriving DecidableEq

/-- Where the controller is. `awake` is also called from `stopInternal`. -/
inductive Controller where
  | idle
  | runRead | create | runNow
  | runStamp (now : ℤ)
  | addThreadInfo
  | sleepRead | toSleep
  | awakeRead (inStop : Bool)
  | toAwake (inStop : Bool)
  | post (inStop : Bool)
  | stopRead | toStop | join | delThreadInfo
  deriving DecidableEq

inductive Monitor where
  | idle
  | readOut | readState | now
  | load (now : ℤ)
  | toTimeOut
  deriving DecidableEq

/-- What the controller may be told to do. -/
inductive Op where
  | run | sleep | awake | stop
  deriving DecidableEq

structure State (σ : Type) where
  state : ThreadState
  bSleep : Bool
  bOut : Bool
  timePoint : ℤ
  semphore : σ
  /-- `m_thread.joinable()` -/
  joinable : Bool
  /-- whether the thread manager knows the thread -/
  registered : Bool
  worker : Worker
  controller : Controller
  monitor : Monitor
  /-- in nanoseconds -/
  clock : ℤ
  log : List Ev

inductive Move where
  | work
  /-- the function calls `looping` -/
  | call
  /-- the function returns -/
  | finish
  | order (op : Op)
  | control
  | watch
  | tick (d : ℕ)
  deriving DecidableEq

variable {σ : Type}

/-- The comparison of `bTimeOut`, in whole seconds -/
def TimedOut (timeOut now timePoint : ℤ) : Prop := timeOut < (now - timePoint).tdiv 1000000000

instance (timeOut now timePoint : ℤ) : Decidable (TimedOut timeOut now timePoint) :=
  inferInstanceAs (Decidable (_ < _))

def begin [Semaphore σ] (clock : ℤ) : State σ where
  state := .unstart
  bSleep := false
  bOut := true
  timePoint := 0
  semphore := Semaphore.create
  joinable := false
  registered := false
  worker := .absent
  controller := .idle
  monitor := .idle
  clock := clock
  log := []

namespace State

/-- `m_state = v` -/
def store (s : State σ) (v : ThreadState) : State σ :=
  { s with state := v, log := s.log ++ [.stored v] }

/-- `run` and `looping` -/
def work [Semaphore σ] (s : State σ) : Option (State σ) :=
  match s.worker with
  | .start => some { s.store .normal with worker := .body }
  | .readSleep => some { s with worker := if s.bSleep then .toSleep else .now }
  | .toSleep => some { s.store .sleep with worker := .pend }
  | .pend => (Semaphore.tryPend s.semphore).map fun sem =>
      { s with semphore := sem, worker := .checkSleep }
  | .checkSleep => some { s with worker := if s.state = .sleep then .toAwake else .now }
  | .toAwake => some { s.store .normal with worker := .now }
  | .now => some { s with worker := .stamp s.clock }
  | .stamp now => some { s with timePoint := now, worker := .checkTimeOut }
  | .checkTimeOut => some { s with
      worker := if s.state = .timeout then .toNormal else .result }
  | .toNormal => some { s.store .normal with worker := .result }
  | .result => some { s with
      worker := .body, log := s.log ++ [.returned (s.state = .normal)] }
  | .leave => some { s.store .done with worker := .clearOut }
  | .clearOut => some { s with bOut := false, worker := .gone }
  | .absent | .body | .gone => none

/-- Where `awake` returns to -/
def awoken (inStop : Bool) : Controller := if inStop then .toStop else .idle

/-- `operator()`, `sleep`, `awake` and `stopInternal`. To assign to a thread that is joinable
ends the process. -/
def control [Semaphore σ] (s : State σ) : Option (State σ) :=
  match s.controller with
  | .idle => none
  | .runRead => some { s with controller := if s.state = .normal then .idle else .create }
  | .create =>
    if s.joinable then none
    else some { s with joinable := true, worker := .start, controller := .runNow }
  | .runNow => some { s with controller := .runStamp s.clock }
  | .runStamp now => some { s with timePoint := now, controller := .addThreadInfo }
  | .addThreadInfo => some { s with registered := true, controller := .idle }
  | .sleepRead => some { s with controller := if s.state = .normal then .toSleep else .idle }
  | .toSleep => some { s with bSleep := true, controller := .idle }
  | .awakeRead inStop => some { s with
      controller := if s.state = .sleep then .toAwake inStop else awoken inStop }
  | .toAwake inStop => some { s with bSleep := false, controller := .post inStop }
  | .post inStop => some { s with
      semphore := Semaphore.post s.semphore, controller := awoken inStop }
  | .stopRead => some { s with
      controller := if s.state = .sleep then .awakeRead true else .toStop }
  | .toStop => some { s.store .stop with controller := .join }
  | .join =>
    if s.joinable ∧ s.worker ≠ .gone then none
    else some { s with joinable := false, controller := .delThreadInfo }
  | .delThreadInfo => some { s with registered := false, controller := .idle }

/-- `bTimeOut` -/
def watch (timeOut : ℤ) (s : State σ) : Option (State σ) :=
  match s.monitor with
  | .idle => if s.registered then some { s with monitor := .readOut } else none
  | .readOut => some { s with monitor := if s.bOut then .readState else .idle }
  | .readState => some { s with monitor := if s.state = .sleep then .idle else .now }
  | .now => some { s with monitor := .load s.clock }
  | .load now => some { s with
      monitor := if TimedOut timeOut now s.timePoint then .toTimeOut else .idle }
  | .toTimeOut => some { s.store .timeout with monitor := .idle }

def order (s : State σ) (op : Op) : State σ :=
  { s with controller := match op with
    | .run => .runRead
    | .sleep => .sleepRead
    | .awake => .awakeRead false
    | .stop => .stopRead }

def move [Semaphore σ] (timeOut : ℤ) (s : State σ) : Move → Option (State σ)
  | .work => s.work
  | .call => if s.worker = .body then
      some { s with worker := .readSleep, log := s.log ++ [.called] } else none
  | .finish => if s.worker = .body then some { s with worker := .leave } else none
  | .order op => if s.controller = .idle then some (s.order op) else none
  | .control => s.control
  | .watch => s.watch timeOut
  | .tick d => some { s with clock := s.clock + d }

end State

def step [Semaphore σ] (timeOut : ℤ) (s : State σ) (m : Move) : Option (State σ × List Unit) :=
  (s.move timeOut m).map (·, [])

/-! ### The conditions -/

/-- The function has not returned. -/
def Worker.Running : Worker → Prop
  | .absent | .leave | .clearOut | .gone => False
  | _ => True

instance (w : Worker) : Decidable w.Running := by
  unfold Worker.Running
  split <;> infer_instance

/-- The thread is pending with nothing to take. -/
def State.Blocked [Semaphore σ] (s : State σ) : Prop :=
  s.worker = .pend ∧ Semaphore.count s.semphore = 0

/-- After `STOP` has been stored no call of `looping` that begins then returns `true`, and the
thread is not left behind in its sleep. -/
structure State.Final [Semaphore σ] (s : State σ) : Prop where
  looping : ¬ List.Sublist [.stored .stop, .called, .returned true] s.log
  awake : .stored .stop ∈ s.log → ¬ s.Blocked

/-- Nobody is about to store into `m_state` or to go to sleep, and who is asleep will wake. -/
structure State.Settled [Semaphore σ] (s : State σ) : Prop where
  worker : s.worker ≠ .start ∧ s.worker ≠ .toSleep ∧ s.worker ≠ .toAwake ∧ s.worker ≠ .toNormal
  bSleep : s.bSleep = false
  monitor : s.monitor ≠ .toTimeOut
  pend : ¬ s.Blocked

/-- `STOP` is stored in a settled state, and from then on the thread is neither found to be late
while its function runs nor started again. -/
def Careful [Semaphore σ] (timeOut : ℤ) (s : State σ) : Move → Prop
  | .control => (s.controller = .toStop → s.worker.Running → s.Settled) ∧
      (s.controller = .create → .stored .stop ∉ s.log)
  | .watch => ∀ now, s.monitor = .load now → .stored .stop ∈ s.log → s.worker.Running →
      ¬ TimedOut timeOut now s.timePoint
  | _ => True

section Decidable

variable [Semaphore σ]

instance (s : State σ) : Decidable s.Blocked := inferInstanceAs (Decidable (_ ∧ _))

instance (s : State σ) : Decidable s.Settled :=
  decidable_of_iff ((s.worker ≠ .start ∧ s.worker ≠ .toSleep ∧ s.worker ≠ .toAwake ∧
      s.worker ≠ .toNormal) ∧ s.bSleep = false ∧ s.monitor ≠ .toTimeOut ∧ ¬ s.Blocked)
    ⟨fun ⟨hw, hs, hm, hp⟩ => ⟨hw, hs, hm, hp⟩, fun ⟨hw, hs, hm, hp⟩ => ⟨hw, hs, hm, hp⟩⟩

instance (timeOut : ℤ) (s : State σ) : (m : Move) → Decidable (Careful timeOut s m)
  | .control => inferInstanceAs (Decidable (_ ∧ _))
  | .watch =>
    match h : s.monitor with
    | .load now => decidable_of_iff (.stored .stop ∈ s.log → s.worker.Running →
        ¬ TimedOut timeOut now s.timePoint) (by simp [Careful, h])
    | .idle | .readOut | .readState | .now | .toTimeOut => .isTrue (by simp [Careful, h])
  | .work | .call | .finish | .order _ | .tick _ => .isTrue trivial

end Decidable

/-! ### What the moves keep -/

structure Inv [Semaphore σ] (s : State σ) : Prop where
  joinable : s.worker.Running → s.joinable
  /-- no `looping` says `true` once `STOP` has been stored -/
  late : Each (fun pre e => e = .returned true → .stored .stop ∉ pre) s.log
  after : .stored .stop ∈ s.log → s.worker.Running →
    s.state = .stop ∧ s.controller = .join ∧ s.Settled

section Inv

variable [Semaphore σ] {timeOut : ℤ} {s t : State σ}

lemma inv_begin (clock : ℤ) : Inv (begin clock : State σ) where
  joinable h := h.elim
  late := each_nil
  after h := by simp [begin] at h

lemma Inv.final (h : Inv s) : s.Final where
  looping hsub := by
    obtain ⟨a, b, hlog, hstop, hb⟩ := List.cons_sublist_iff.mp hsub
    obtain ⟨c, d, rfl, -, hd⟩ := List.cons_sublist_iff.mp hb
    obtain ⟨e, f, rfl⟩ := List.append_of_mem (List.singleton_sublist.mp hd)
    have hlate := h.late (a ++ c ++ e) (.returned true) f (by simp [hlog]) rfl
    exact hlate (by simp [hstop])
  awake hstop hblocked := by
    have hrun : s.worker.Running := by
      rw [hblocked.1]
      trivial
    exact (h.after hstop hrun).2.2.pend hblocked

/-- What a move of one party can do. While the controller waits in `join`, a settled thread goes
on to its end with `STOP`. -/
structure Moved (timeOut : ℤ) (m : Move) (s t : State σ) : Prop where
  log : t.log = s.log ∨ ∃ e, t.log = s.log ++ [e] ∧
    (e = .stored .stop → m = .control ∧ s.controller = .toStop) ∧
    (e = .returned true → s.worker = .result ∧ s.state = .normal)
  thread : t.worker.Running → (m = .control ∧ s.controller = .create ∧ t.joinable) ∨
    (s.worker.Running ∧ (s.joinable → t.joinable))
  settled : t.worker.Running → s.joinable → s.state = .stop → s.controller = .join → s.Settled →
    (m = .watch → ∀ now, s.monitor = .load now → ¬ TimedOut timeOut now s.timePoint) →
    t.state = .stop ∧ t.controller = .join ∧ t.Settled

lemma moved_work (h : s.work = some t) : Moved timeOut .work s t := by
  rcases hw : s.worker with _ | _ | _ | _ | _ | _ | _ | _ | _ | now | _ | _ | _ | _ | _ | _ <;>
    simp [State.work, hw] at h
  case leave | clearOut =>
    subst h
    exact ⟨by simp [State.store], fun ht => ht.elim, fun ht => ht.elim⟩
  case pend =>
    obtain ⟨sem, -, rfl⟩ := h
    refine ⟨.inl rfl, fun _ => .inr ⟨by simp [hw, Worker.Running], id⟩, ?_⟩
    intro _ _ hstate hc hset _
    exact ⟨hstate, hc, by simp, hset.bSleep, hset.monitor, by simp [State.Blocked]⟩
  case start | toSleep | toAwake | toNormal =>
    subst h
    refine ⟨by simp [State.store], fun _ => .inr ⟨by simp [hw, Worker.Running], id⟩, ?_⟩
    intro _ _ _ _ hset _
    simpa [hw] using hset.worker
  all_goals
    subst h
    refine ⟨by simp [hw], fun _ => .inr ⟨by simp [hw, Worker.Running], id⟩, ?_⟩
    intro _ _ hstate hc hset _
    have hsleep := hset.bSleep
    exact ⟨hstate, hc, by simp [*], hsleep, hset.monitor, by simp [State.Blocked, *]⟩

lemma moved_control (h : s.control = some t) : Moved timeOut .control s t := by
  rcases hc : s.controller with _ | _ | _ | _ | now | _ | _ | _ | i | i | i | _ | _ | _ | _ <;>
    simp [State.control, hc] at h
  case create =>
    obtain ⟨-, rfl⟩ := h
    refine ⟨.inl rfl, fun _ => .inl ⟨rfl, hc, rfl⟩, fun _ _ _ hjoin => ?_⟩
    rw [hc] at hjoin
    cases hjoin
  case join =>
    -- `join` does not return while the function runs
    obtain ⟨hgone, rfl⟩ := h
    have hnot : s.worker.Running → s.joinable → False := by
      intro ht hj
      rw [hgone hj] at ht
      exact ht
    exact ⟨.inl rfl, fun ht => .inr ⟨ht, fun hj => (hnot ht hj).elim⟩,
      fun ht hj => (hnot ht hj).elim⟩
  all_goals
    subst h
    refine ⟨by simp [State.store, hc], fun ht => .inr ⟨ht, id⟩, fun _ _ _ hjoin => ?_⟩
    rw [hc] at hjoin
    cases hjoin

lemma moved_watch (h : s.watch timeOut = some t) : Moved timeOut .watch s t := by
  rcases hm : s.monitor with _ | _ | _ | _ | now | _ <;> simp [State.watch, hm] at h
  case idle =>
    obtain ⟨-, rfl⟩ := h
    refine ⟨.inl rfl, fun ht => .inr ⟨ht, id⟩, fun _ _ hstate hc hset _ => ?_⟩
    exact ⟨hstate, hc, hset.worker, hset.bSleep, by simp, hset.pend⟩
  case toTimeOut =>
    subst h
    refine ⟨by simp [State.store], fun ht => .inr ⟨ht, id⟩, fun _ _ _ _ hset _ => ?_⟩
    exact absurd hm hset.monitor
  case load =>
    subst h
    refine ⟨.inl rfl, fun ht => .inr ⟨ht, id⟩, fun _ _ hstate hc hset htime => ?_⟩
    have hnot := htime rfl now hm
    exact ⟨hstate, hc, hset.worker, hset.bSleep, by simp [hnot], hset.pend⟩
  all_goals
    subst h
    refine ⟨.inl rfl, fun ht => .inr ⟨ht, id⟩, fun _ _ hstate hc hset _ => ?_⟩
    refine ⟨hstate, hc, hset.worker, hset.bSleep, ?_, hset.pend⟩
    grind

lemma moved_of_move {m : Move} (h : s.move timeOut m = some t) : Moved timeOut m s t := by
  cases m with
  | work => exact moved_work h
  | control => exact moved_control h
  | watch => exact moved_watch h
  | call =>
    simp only [State.move] at h
    split_ifs at h with hbody
    obtain rfl := Option.some.inj h
    refine ⟨.inr ⟨.called, rfl, by simp⟩, fun _ => .inr ⟨by simp [hbody, Worker.Running], id⟩, ?_⟩
    intro _ _ hstate hc hset _
    exact ⟨hstate, hc, by simp, hset.bSleep, hset.monitor, by simp [State.Blocked]⟩
  | finish =>
    simp only [State.move] at h
    split_ifs at h
    obtain rfl := Option.some.inj h
    exact ⟨.inl rfl, fun ht => ht.elim, fun ht => ht.elim⟩
  | order op =>
    simp only [State.move] at h
    split_ifs at h with hidle
    obtain rfl := Option.some.inj h
    refine ⟨.inl rfl, fun ht => .inr ⟨ht, id⟩, fun _ _ _ hjoin => ?_⟩
    rw [hidle] at hjoin
    cases hjoin
  | tick d =>
    obtain rfl := Option.some.inj h
    refine ⟨.inl rfl, fun ht => .inr ⟨ht, id⟩, fun _ _ hstate hc hset _ => ?_⟩
    exact ⟨hstate, hc, hset.worker, hset.bSleep, hset.monitor, hset.pend⟩

lemma Inv.move {m : Move} (h : Inv s) (hm : s.move timeOut m = some t)
    (hcare : Careful timeOut s m) : Inv t := by
  have hmoved := moved_of_move hm
  refine ⟨fun ht => ?_, ?_, fun hstop ht => ?_⟩
  · rcases hmoved.thread ht with ⟨-, -, hj⟩ | ⟨hs, hj⟩
    · exact hj
    · exact hj (h.joinable hs)
  · rcases hmoved.log with hlog | ⟨e, hlog, -, htrue⟩
    · rw [hlog]
      exact h.late
    · rw [hlog, each_snoc]
      refine ⟨h.late, fun he hstop => ?_⟩
      obtain ⟨hw, hnormal⟩ := htrue he
      have hstate := (h.after hstop (by rw [hw]; trivial)).1
      rw [hnormal] at hstate
      cases hstate
  · by_cases hold : .stored .stop ∈ s.log
    · rcases hmoved.thread ht with ⟨rfl, hc, -⟩ | ⟨hs, -⟩
      · exact absurd hold (hcare.2 hc)
      · obtain ⟨hstate, hc, hset⟩ := h.after hold hs
        refine hmoved.settled ht (h.joinable hs) hstate hc hset ?_
        rintro rfl now hnow
        exact hcare now hnow hold hs
    · rcases hmoved.log with hlog | ⟨e, hlog, he, -⟩
      · exact absurd (hlog ▸ hstop) hold
      · obtain rfl : e = .stored .stop := by
          rw [hlog] at hstop
          simpa [hold, eq_comm] using hstop
        obtain ⟨rfl, hc⟩ := he rfl
        simp only [State.move, State.control, hc] at hm
        obtain rfl := Option.some.inj hm
        obtain ⟨hworker, hsleep, hmonitor, hpend⟩ := hcare.1 hc ht
        exact ⟨rfl, rfl, hworker, hsleep, hmonitor, hpend⟩

end Inv

/-- If every `STOP` of a run is stored in a settled state, and the thread is then neither late nor
started again, stopping is final in every state the run goes through. -/
theorem stop_final [Semaphore σ] (timeOut clock : ℤ) (ms : List Move) (s : State σ)
    (o : List Unit) (hrun : run (step timeOut) (begin clock) ms = some (s, o))
    (hcare : Along (step timeOut) (Careful timeOut) (begin clock : State σ) ms) : s.Final := by
  refine (run_inv (I := fun _ s _ => Inv s) (inv_begin clock) ?_ hrun hcare).final
  intro ms t o m u p h hc hstep
  obtain ⟨v, hmove, hv⟩ := Option.map_eq_some_iff.mp hstep
  obtain ⟨rfl, -⟩ : v = u ∧ _ := by simpa using hv
  exact h.move hmove hc

/-- A thread that calls `looping`, is stopped while it is in its function and leaves it then. -/
def tidyRun : List Move :=
  [.order .run, .control, .control, .work, .control, .control, .control, .call, .work, .work,
    .work, .work, .work, .watch, .watch, .watch, .watch, .watch, .order .stop, .control, .control,
    .call, .work, .work, .work, .work, .work, .finish, .work, .work, .control, .control]

theorem tidy_final : ∃ s : State ℕ, run (step 60) (begin 0) tidyRun = some (s, []) ∧ s.Final :=
  ⟨_, rfl, stop_final 60 0 tidyRun _ [] rfl (by decide)⟩

/-- The controller stores `STOP` before the thread stores its first `NORMAL`. -/
def hastyRun : List Move :=
  [.order .run, .control, .control, .control, .control, .control, .order .stop, .control, .control,
    .work, .call, .work, .work, .work, .work, .work]

theorem hasty_stop_lost : ¬ ∀ (timeOut clock : ℤ) (ms : List Move) (s : State ℕ) (o : List Unit),
    run (step timeOut) (begin clock) ms = some (s, o) → s.Final := by
  intro h
  have hfinal := h 60 0 hastyRun _ [] rfl
  have hlooping := hfinal.looping
  revert hlooping
  decide

/-! ### Careless moves

The condition asks for no more than it has to: after a careless move `STOP` can be lost without
another one.
-/

section Lost

variable [Semaphore σ] {timeOut : ℤ} {s t : State σ}

/-- The thread alone can come to a state in which stopping was not final. -/
def Lost (timeOut : ℤ) (s : State σ) : Prop :=
  Leads (step timeOut) (fun m => m = .work ∨ m = .call) s fun t _ => ¬ t.Final

lemma Lost.work (h : s.work = some t) (ht : Lost timeOut t) : Lost timeOut s :=
  Leads.move (m := .work) (o := []) (by simp [step, State.move, h]) (.inl rfl) ht

lemma Lost.call (h : s.worker = .body)
    (ht : Lost timeOut { s with worker := .readSleep, log := s.log ++ [.called] }) :
    Lost timeOut s :=
  Leads.move (m := .call) (o := []) (by simp [step, State.move, h]) (.inr rfl) ht

/-- How far a thread is from its next sleep. -/
def Worker.rank (bSleep : Bool) : Worker → ℕ
  | .checkSleep => 19
  | .toAwake => 18
  | .now => 17
  | .stamp _ => 16
  | .checkTimeOut => 15
  | .toNormal => 14
  | .start | .result => 13
  | .body => 12
  | .readSleep => if bSleep then 11 else 18
  | .toSleep => 10
  | .pend => 9
  | .absent | .leave | .clearOut | .gone => 0

/-- `STOP` has been stored, and it is overwritten, or will be, or the thread goes to sleep. -/
structure Astray (s : State σ) : Prop where
  stop : .stored .stop ∈ s.log
  running : s.worker.Running
  cause : s.bSleep = true ∨ s.state = .normal ∨ s.state = .timeout ∨
    (s.state = .sleep ∧ (s.worker = .pend ∨ s.worker = .checkSleep)) ∨
    s.worker = .start ∨ s.worker = .toSleep ∨ s.worker = .toAwake ∨ s.worker = .toNormal ∨ s.Blocked

/-- The call of `looping` that finds `NORMAL` or `TIMEOUT` -/
lemma lost_of_body (hw : s.worker = .body) (hstop : .stored .stop ∈ s.log)
    (hsleep : s.bSleep = false) (hstate : s.state = .normal ∨ s.state = .timeout) :
    Lost timeOut s := by
  have hfinal : ∀ (u : State σ) l, u.log = s.log ++ (Ev.called :: l ++ [Ev.returned true]) →
      ¬ u.Final := by
    intro u l hlog hu
    refine hu.looping ?_
    rw [hlog, List.cons_append]
    have hreturned : List.Sublist [Ev.returned true] (l ++ [Ev.returned true]) :=
      List.singleton_sublist.mpr (List.mem_append_right l (List.mem_singleton_self _))
    exact (List.singleton_sublist.mpr hstop).append (hreturned.cons_cons _)
  refine .call hw (.work (t := { s with worker := .now, log := s.log ++ [.called] })
    (by simp [State.work, hsleep]) (.work rfl (.work rfl ?_)))
  rcases hstate with hstate | hstate
  · refine .work (t := { s with
      worker := .result, log := s.log ++ [.called], timePoint := s.clock }) ?_ (.work rfl ?_)
    · simp [State.work, hstate]
    · exact Leads.here (hfinal _ [] (by simp [hstate]))
  · refine .work (t := { s with
      worker := .toNormal, log := s.log ++ [.called], timePoint := s.clock }) ?_
        (.work rfl (.work rfl ?_))
    · simp [State.work, hstate]
    · exact Leads.here (hfinal _ [.stored .normal] (by simp [State.store]))

lemma Astray.lost (h : Astray s) : Lost timeOut s := by
  -- every move of the thread brings it nearer to a sleep, which takes a permit each time
  induction hn : 20 * Semaphore.count s.semphore + s.worker.rank s.bSleep using
    Nat.strong_induction_on generalizing s with
  | h n ih =>
  obtain ⟨hstop, hrun, hcause⟩ := h
  subst hn
  have hlost : ∀ t : State σ, 20 * Semaphore.count t.semphore + t.worker.rank t.bSleep <
      20 * Semaphore.count s.semphore + s.worker.rank s.bSleep → Astray t → Lost timeOut t :=
    fun t hlt ht => ih _ hlt ht rfl
  cases hw : s.worker with
  | absent | leave | clearOut | gone => simp [hw, Worker.Running] at hrun
  | start =>
    refine .work (t := { s.store .normal with worker := .body }) (by simp [State.work, hw]) ?_
    refine hlost _ (by simp [State.store, hw, Worker.rank]) ⟨?_, trivial, .inr (.inl rfl)⟩
    simp [State.store, hstop]
  | body =>
    cases hsleep : s.bSleep with
    | true =>
      refine .call hw (hlost _ (by simp [hw, Worker.rank, hsleep]) ⟨?_, trivial, .inl hsleep⟩)
      simp [hstop]
    | false =>
      exact lost_of_body hw hstop hsleep (by simpa [hw, hsleep, State.Blocked] using hcause)
  | readSleep =>
    cases hsleep : s.bSleep with
    | true =>
      refine .work (t := { s with worker := .toSleep }) (by simp [State.work, hw, hsleep]) ?_
      exact hlost _ (by simp [hw, Worker.rank, hsleep]) ⟨hstop, trivial, .inl hsleep⟩
    | false =>
      refine .work (t := { s with worker := .now }) (by simp [State.work, hw, hsleep]) ?_
      refine hlost _ (by simp [hw, Worker.rank, hsleep]) ⟨hstop, trivial, ?_⟩
      simpa [hw, State.Blocked] using hcause
  | toSleep =>
    refine .work (t := { s.store .sleep with worker := .pend }) (by simp [State.work, hw]) ?_
    refine hlost _ (by simp [State.store, hw, Worker.rank]) ⟨?_, trivial, ?_⟩
    · simp [State.store, hstop]
    · exact .inr (.inr (.inr (.inl ⟨rfl, .inl rfl⟩)))
  | pend =>
    rcases hsem : Semaphore.tryPend s.semphore with _ | sem
    · exact Leads.here fun hfinal =>
        hfinal.awake hstop ⟨hw, Semaphore.tryPend_eq_none.mp hsem⟩
    · have hcount := Semaphore.count_of_tryPend hsem
      refine .work (t := { s with semphore := sem, worker := .checkSleep })
        (by simp [State.work, hw, hsem]) ?_
      refine hlost _ ?_ ⟨hstop, trivial, ?_⟩
      · simp only [hw, Worker.rank]
        omega
      · simpa [hw, State.Blocked, hcount] using hcause
  | checkSleep =>
    by_cases hstate : s.state = .sleep
    · refine .work (t := { s with worker := .toAwake }) (by simp [State.work, hw, hstate]) ?_
      exact hlost _ (by simp [hw, Worker.rank]) ⟨hstop, trivial, by simp⟩
    · refine .work (t := { s with worker := .now }) (by simp [State.work, hw, hstate]) ?_
      refine hlost _ (by simp [hw, Worker.rank]) ⟨hstop, trivial, ?_⟩
      simpa [hw, State.Blocked, hstate] using hcause
  | toAwake =>
    refine .work (t := { s.store .normal with worker := .now }) (by simp [State.work, hw]) ?_
    refine hlost _ (by simp [State.store, hw, Worker.rank]) ⟨?_, trivial, .inr (.inl rfl)⟩
    simp [State.store, hstop]
  | now =>
    refine .work (t := { s with worker := .stamp s.clock }) (by simp [State.work, hw]) ?_
    refine hlost _ (by simp [hw, Worker.rank]) ⟨hstop, trivial, ?_⟩
    simpa [hw, State.Blocked] using hcause
  | stamp now =>
    refine .work (t := { s with timePoint := now, worker := .checkTimeOut })
      (by simp [State.work, hw]) ?_
    refine hlost _ (by simp [hw, Worker.rank]) ⟨hstop, trivial, ?_⟩
    simpa [hw, State.Blocked] using hcause
  | checkTimeOut =>
    by_cases hstate : s.state = .timeout
    · refine .work (t := { s with worker := .toNormal }) (by simp [State.work, hw, hstate]) ?_
      exact hlost _ (by simp [hw, Worker.rank]) ⟨hstop, trivial, by simp⟩
    · refine .work (t := { s with worker := .result }) (by simp [State.work, hw, hstate]) ?_
      refine hlost _ (by simp [hw, Worker.rank]) ⟨hstop, trivial, ?_⟩
      simpa [hw, State.Blocked] using hcause
  | toNormal =>
    refine .work (t := { s.store .normal with worker := .result }) (by simp [State.work, hw]) ?_
    refine hlost _ (by simp [State.store, hw, Worker.rank]) ⟨?_, trivial, .inr (.inl rfl)⟩
    simp [State.store, hstop]
  | result =>
    refine .work (t := { s with
      worker := .body, log := s.log ++ [.returned (s.state = .normal)] })
      (by simp [State.work, hw]) ?_
    refine hlost _ (by simp [hw, Worker.rank]) ⟨by simp [hstop], trivial, ?_⟩
    simpa [hw, State.Blocked] using hcause

/-- What a thread that has gone astray does is careful. -/
lemma Astray.careful (h : Astray s) : ∃ ms t o, Along (step timeOut) (Careful timeOut) s ms ∧
    run (step timeOut) s ms = some (t, o) ∧ ¬ t.Final := by
  obtain ⟨ms, t, o, hms, hrun, hfinal⟩ := h.lost
  refine ⟨ms, t, o, along_of_forall (fun m hm w => ?_) s, hrun, hfinal⟩
  rcases hms m hm with rfl | rfl <;> trivial

/-- A time-out that has been found is stored over `STOP`. -/
lemma timeOut_careful (hstop : .stored .stop ∈ s.log) (hrun : s.worker.Running)
    (hm : s.monitor = .toTimeOut) : ∃ ms t o, Along (step timeOut) (Careful timeOut) s ms ∧
      run (step timeOut) s ms = some (t, o) ∧ ¬ t.Final := by
  have hstep : step timeOut s .watch = some ({ s.store .timeout with monitor := .idle }, []) := by
    simp [step, State.move, State.watch, hm]
  have hastray : Astray { s.store .timeout with monitor := .idle } :=
    ⟨by simp [State.store, hstop], hrun, .inr (.inr (.inl rfl))⟩
  obtain ⟨ms, t, o, hms, hrun', hfinal⟩ := hastray.careful
  refine ⟨.watch :: ms, t, o, along_cons.mpr ⟨fun now hnow => ?_, ?_⟩,
    run_cons.mpr ⟨_, [], o, hstep, hrun', rfl⟩, hfinal⟩
  · rw [hm] at hnow
    cases hnow
  · intro u p hu
    obtain ⟨rfl, -⟩ : _ = u ∧ _ := by simpa using hstep.symm.trans hu
    exact hms

/-- After every careless move careful ones can follow with which stopping is not final. -/
theorem careless_lost {m : Move} {o : List Unit} (hm : ¬ Careful timeOut s m)
    (hstep : step timeOut s m = some (t, o)) :
    ∃ ms u p, Along (step timeOut) (Careful timeOut) t ms ∧
      run (step timeOut) t ms = some (u, p) ∧ ¬ u.Final := by
  cases m with
  | work | call | finish | order | tick => exact absurd trivial hm
  | control =>
    rcases not_and_or.mp hm with hstop | hcreate
    · simp only [Classical.not_imp] at hstop
      obtain ⟨hc, hrun, hset⟩ := hstop
      simp only [step, State.move, State.control, hc] at hstep
      obtain ⟨rfl, -⟩ : _ = t ∧ _ := by simpa using hstep
      by_cases hmonitor : s.monitor = .toTimeOut
      · exact timeOut_careful (by simp [State.store]) hrun hmonitor
      · refine Astray.careful ⟨by simp [State.store], hrun, ?_⟩
        by_contra hcause
        simp only [State.store, not_or] at hcause
        obtain ⟨hsleep, -, -, -, hstart, htoSleep, htoAwake, htoNormal, hpend⟩ := hcause
        exact hset
          ⟨⟨hstart, htoSleep, htoAwake, htoNormal⟩, by simpa using hsleep, hmonitor, hpend⟩
    · simp only [Classical.not_imp, not_not] at hcreate
      obtain ⟨hc, hstop⟩ := hcreate
      simp only [step, State.move, State.control, hc] at hstep
      split_ifs at hstep
      · cases hstep
      · obtain ⟨rfl, -⟩ : _ = t ∧ _ := by simpa using hstep
        exact Astray.careful ⟨hstop, trivial, by simp⟩
  | watch =>
    simp only [Careful, not_forall, not_not] at hm
    obtain ⟨now, hload, hstop, hrun, hlate⟩ := hm
    simp only [step, State.move, State.watch, hload, if_pos hlate] at hstep
    obtain ⟨rfl, -⟩ : _ = t ∧ _ := by simpa using hstep
    exact timeOut_careful hstop hrun rfl

end Lost

end DataEngine.ThreadWrap
