import DataEngine.Plug.IEC104.Replies

/-!
Runs of the plug-in.

The select loop of the server hands the plug-in one event after another. While a message is
being handled nothing else happens, and each move is one pass of its loop; a run that stops
with a fault makes no further moves.
-/

namespace DataEngine.TransIEC104

open Lib.Effect Lib.DoWhile Lib.Trace

/-! ### One pass -/

variable {R V : Type} [Double R] (env : Env R V) (build : Build)

/-- The verdict of `fixFrame` on a whole buffer. -/
def verdict (buf : List UInt8) : FixFrameValue × ℤ := fixFrame build buf buf.length 0

/-- What a pass makes of the frame its buffer starts with. -/
def handleFrame (fd : ℤ) (s : Plug) (n : ℕ) : Outcome :=
  exec (analyseFrame env ((s.mapRecvBuf fd).take n)) (setBuf s fd ((s.mapRecvBuf fd).drop n))

lemma handlePass_incomplete {fd : ℤ} {s : Plug} {n : ℤ}
    (h : verdict build (s.mapRecvBuf fd) = (.incomplete, n)) :
    handlePass env build fd s = .leave (.ok (), s) := by
  unfold verdict at h
  simp only [handlePass, h]

lemma handlePass_invalid {fd : ℤ} {s : Plug} {n : ℤ}
    (h : verdict build (s.mapRecvBuf fd) = (.invalid, n)) :
    handlePass env build fd s = .leave (.ok (), setBuf s fd []) := by
  unfold verdict at h
  simp only [handlePass, h]

/-- After a frame the loop goes on unless the buffer is empty or the handler stopped. -/
lemma handlePass_complete {fd : ℤ} {s : Plug} {n : ℤ}
    (h : verdict build (s.mapRecvBuf fd) = (.complete, n)) :
    (handlePass env build fd s = .leave (handleFrame env fd s (toSize n)) ∧
        ((handleFrame env fd s (toSize n)).1 = .ok () →
          (handleFrame env fd s (toSize n)).2.mapRecvBuf fd = [])) ∨
      (handlePass env build fd s = .again (handleFrame env fd s (toSize n)).2 ∧
        (handleFrame env fd s (toSize n)).1 = .ok ()) := by
  unfold verdict at h
  simp only [handlePass, h]
  unfold handleFrame
  rcases exec (analyseFrame env ((s.mapRecvBuf fd).take (toSize n)))
    (setBuf s fd ((s.mapRecvBuf fd).drop (toSize n))) with ⟨_ | _, t⟩
  · exact .inl ⟨rfl, by simp⟩
  · by_cases he : t.mapRecvBuf fd = []
    · exact .inl ⟨by simp [he], fun _ => he⟩
    · exact .inr ⟨by simp [he], rfl⟩

/-! ### The machine -/

/-- Whether a message is being handled. -/
inductive Ctl where
  | idle
  | handling (fd : ℤ)
  | stopped

structure Machine where
  plug : Plug
  ctl : Ctl

inductive Move where
  | connection (status : ConnectStatus) (fd : ℤ)
  | message (fd : ℤ) (chunk : List UInt8)
  | pass

def step (m : Machine) (move : Move) : Machine :=
  match m.ctl, move with
  | .idle, .connection status fd => { m with plug := newConnectedFunc status fd m.plug }
  | .idle, .message fd chunk => ⟨receive fd chunk m.plug, .handling fd⟩
  | .handling fd, .pass =>
    match handlePass env build fd m.plug with
    | .again t => ⟨t, .handling fd⟩
    | .leave (.ok _, t) => ⟨t, .idle⟩
    | .leave (.error _, t) => ⟨t, .stopped⟩
  | _, _ => m

def Machine.init : Machine := ⟨Plug.init, .idle⟩

def run (moves : List Move) : Machine := moves.foldl (step env build) Machine.init

@[simp] lemma run_nil : run env build [] = Machine.init := rfl

lemma run_snoc (moves : List Move) (move : Move) :
    run env build (moves ++ [move]) = step env build (run env build moves) move := by
  simp [run, List.foldl_append]

/-- What one move does to the log and the counters. -/
inductive Moved (m m' : Machine) : Prop where
  | quiet (log : m'.plug.log = m.plug.log) (sendIdx : m'.plug.sendIdx = m.plug.sendIdx)
      (recvIdx : m'.plug.recvIdx = m.plug.recvIdx) (ctl : m'.ctl ≠ .stopped → m.ctl ≠ .stopped)
  | connection (e : Ev) (he : ∃ fd, e = .connect fd ∨ e = .disconnect fd)
      (log : m'.plug.log = m.plug.log ++ [e]) (sendIdx : m'.plug.sendIdx = m.plug.sendIdx)
      (recvIdx : m'.plug.recvIdx = m.plug.recvIdx) (ctl : m.ctl ≠ .stopped)
  | analysed (s : Plug) (f : Frame) (evs : List Ev) (log : s.log = m.plug.log)
      (sendIdx : s.sendIdx = m.plug.sendIdx) (recvIdx : s.recvIdx = m.plug.recvIdx)
      (handled : Handled env f s m'.plug evs) (ctl : m.ctl ≠ .stopped)
      (length : m'.ctl ≠ .stopped → 2 ≤ f.length)

lemma moved_self (m : Machine) : Moved env m m := .quiet rfl rfl rfl id

theorem step_moved (m : Machine) (move : Move) : Moved env m (step env build m move) := by
  obtain ⟨s, ctl⟩ := m
  rcases ctl with _ | fd | _
  · rcases move with ⟨_ | _, fd⟩ | ⟨fd, chunk⟩ | _
    · exact .connection (.connect fd) ⟨fd, .inl rfl⟩ rfl rfl rfl (by simp)
    · exact .connection (.disconnect fd) ⟨fd, .inr rfl⟩ rfl rfl rfl (by simp)
    · exact .quiet rfl rfl rfl (by simp)
    · exact moved_self env _
  · rcases move with ⟨status, fd'⟩ | ⟨fd', chunk⟩ | _
    · exact moved_self env _
    · exact moved_self env _
    · simp only [step]
      rcases hv : verdict build (s.mapRecvBuf fd) with ⟨_ | _ | _, n⟩
      · rw [handlePass_invalid env build hv]
        exact .quiet rfl rfl rfl (by simp)
      · obtain ⟨evs, hevs⟩ := analyseFrame_handled env ((s.mapRecvBuf fd).take (toSize n))
          (setBuf s fd ((s.mapRecvBuf fd).drop (toSize n)))
        have hlen (hok : (handleFrame env fd s (toSize n)).1 = .ok ()) :
            2 ≤ ((s.mapRecvBuf fd).take (toSize n)).length :=
          length_of_analysed (Prod.ext hok rfl)
        rcases handlePass_complete env build hv with ⟨h, -⟩ | ⟨h, hok⟩ <;> rw [h]
        · rcases ho : handleFrame env fd s (toSize n) with ⟨e | u, t⟩
          all_goals
            have ht : t = (handleFrame env fd s (toSize n)).2 := by
              rw [ho]
            subst ht
          · exact .analysed (setBuf s fd _) _ evs rfl rfl rfl hevs (by simp) (by simp)
          · exact .analysed (setBuf s fd _) _ evs rfl rfl rfl hevs (by simp)
              fun _ => hlen (by rw [ho])
        · exact .analysed (setBuf s fd _) _ evs rfl rfl rfl hevs (by simp) fun _ => hlen hok
      · rw [handlePass_incomplete env build hv]
        exact .quiet rfl rfl rfl (by simp)
  · rcases move with ⟨status, fd'⟩ | ⟨fd', chunk⟩ | _ <;> exact moved_self env _

end DataEngine.TransIEC104
