import DataEngine.Channel.ChannelBase

/-!
Whether a request that waits is the one the message thread works for.

The requester announces its device in the name of the handle, and the message thread empties
the name once it has posted. It does so after the post, so the requester may by then have
announced the next device.
-/

namespace DataEngine.Channel.ChannelBase

open Lib.Machine

variable {β σ : Type} [Semaphore σ]

/-- Nothing is left to take for the device. -/
def Unposted (c : ChannelBase β σ) (name : String) : Prop := Semaphore.count (c.mapSem name) = 0

/-- A device that is waited for, with no post outstanding, is the one that is announced. -/
def Registered (c : ChannelBase β σ) : Prop :=
  ∀ name, c.caller = .waiting name → c.Unposted name → c.msgHandle.name = name

/-- The name is emptied only when no device announced since the message thread has read the name
is waited for with no post outstanding. -/
def Undisturbed (c : ChannelBase β σ) : Move β → Prop
  | .clear => c.overtaken = true → ∀ name, c.caller = .waiting name → c.Unposted name → name = ""
  | _ => True

instance (c : ChannelBase β σ) (name : String) : Decidable (c.Unposted name) :=
  inferInstanceAs (Decidable (_ = _))

instance (c : ChannelBase β σ) : (m : Move β) → Decidable (c.Undisturbed m)
  | .clear =>
    match h : c.caller with
    | .waiting name =>
      decidable_of_iff (c.overtaken = true → c.Unposted name → name = "") (by simp [Undisturbed, h])
    | .idle | .draining _ | .registering _ | .timedOut _ | .posted _ =>
      .isTrue (by simp [Undisturbed, h])
  | .handleMessage _ | .readName | .take | .dealMsg _ | .store | .post | .send _ | .tryPend
  | .setName | .pend | .timeOut | .withdraw | .answer => .isTrue trivial

/-- The message thread still has to post for the device before it empties the name, or has yet
to read the name. -/
def WorksFor (c : ChannelBase β σ) (name : String) : Prop :=
  match c.completing with
  | .storing n _ => n = name
  | .posting n => n = name
  | .clearing => False
  | .out =>
    match c.msgHandle.pc with
    | .top => True
    | .named n => n = name
    | .loaded n => n = name

/-- A device that was waited for already when the message thread read the name is the one it
works for, unless something has been posted for it. -/
structure Attended (c : ChannelBase β σ) : Prop where
  registered : c.Registered
  worksFor : c.overtaken = false → ∀ name, c.caller = .waiting name → c.Unposted name →
    c.WorksFor name

lemma attended_init : Attended (init : ChannelBase β σ) := by
  constructor <;> simp [init, Registered]

/-- Who does not wait need not be attended. -/
lemma Attended.of_not_waiting {c : ChannelBase β σ} (h : ∀ name, c.caller ≠ .waiting name) :
    Attended c :=
  ⟨fun name hw => absurd hw (h name), fun _ name hw => absurd hw (h name)⟩

lemma Attended.moved {c c' : ChannelBase β σ} {m : Move β} {out : List (Reply β)}
    (h : Attended c) (hc : Undisturbed c m) (hm : c.Moved m c' out) : Attended c' := by
  cases hm with
  | handleMessage buf => exact ⟨h.registered, h.worksFor⟩
  | readName hout hpc =>
    refine ⟨h.registered, fun _ name hw hu => ?_⟩
    have hn : c.msgHandle.name = name := h.registered name hw hu
    by_cases he : c.msgHandle.name = ""
    · simp only [WorksFor, hout, if_pos he]
    · simp only [WorksFor, hout, if_neg he]
      exact hn
  | take hout hpc =>
    refine ⟨h.registered, fun ho name hw hu => ?_⟩
    have hn := h.worksFor ho name hw hu
    simp only [WorksFor, hout, hpc] at hn
    by_cases he : c.msgHandle.recvBufTmp ++ c.msgHandle.recvBuf = []
    · simp only [WorksFor, hout, if_pos he]
    · simp only [WorksFor, hout, if_neg he, hn]
  | keep hout hpc =>
    exact ⟨h.registered, fun _ name _ _ => by simp only [WorksFor, hout]⟩
  | cut n hout hpc =>
    refine ⟨h.registered, fun ho name hw hu => ?_⟩
    have hn := h.worksFor ho name hw hu
    simp only [WorksFor, hout, hpc] at hn
    exact hn
  | store hstoring =>
    refine ⟨h.registered, fun ho name hw hu => ?_⟩
    have hn := h.worksFor ho name hw hu
    simp only [WorksFor, hstoring] at hn
    exact hn
  | @post n hposting =>
    -- what is posted for the device itself is outstanding
    have hother {name : String}
        (hu : (c.setSem n (Semaphore.post (c.mapSem n))).Unposted name) :
        n ≠ name ∧ c.Unposted name := by
      have hne : n ≠ name := by
        rintro rfl
        simp [Unposted, setSem, Semaphore.count_post] at hu
      refine ⟨hne, ?_⟩
      simpa only [Unposted, setSem, Function.update_of_ne (Ne.symm hne)] using hu
    refine ⟨fun name hw hu => h.registered name hw (hother hu).2, fun ho name hw hu => ?_⟩
    have hn := h.worksFor ho name hw (hother hu).2
    simp only [WorksFor, hposting] at hn
    exact absurd hn (hother hu).1
  | clear hclearing =>
    have hnot (ho : c.overtaken = false) (name : String) (hw : c.caller = .waiting name)
        (hu : c.Unposted name) : False := by
      have hn := h.worksFor ho name hw hu
      simp only [WorksFor, hclearing] at hn
    refine ⟨fun name hw hu => ?_, fun ho name hw hu => (hnot ho name hw hu).elim⟩
    rcases ho : c.overtaken with _ | _
    · exact (hnot ho name hw hu).elim
    · exact (hc ho name hw hu).symm
  | @setName n hregistering =>
    refine ⟨fun name hw _ => ?_, fun ho => by simp at ho⟩
    obtain rfl : n = name := by simpa using hw
    rfl
  | send name => exact .of_not_waiting (by simp)
  | drain hdraining => exact .of_not_waiting (by simp [setSem, hdraining])
  | _ => exact .of_not_waiting (by simp)

/-- **A waiting request stays registered** in every state of a run exactly if the message thread
never empties the name of a device that has been announced since it has read the name and is
waited for with no post outstanding. -/
theorem registered_iff {ms : List (Move β)} {c : ChannelBase β σ} {out : List (Reply β)}
    (hrun : run step init ms = some (c, out)) :
    (∀ pre c' out', pre <+: ms → run step (init : ChannelBase β σ) pre = some (c', out') →
        c'.Registered) ↔
      Along step Undisturbed (init : ChannelBase β σ) ms := by
  constructor
  · intro h pre m post hms t o hpre
    cases m with
    | clear =>
      intro _ name hw hu
      obtain ⟨u, p, q, hpre', hrest, -⟩ := run_append.mp (hms ▸ hrun)
      obtain ⟨rfl, rfl⟩ : t = u ∧ o = p := by simpa using hpre.symm.trans hpre'
      obtain ⟨v, p', q', hstep, -, -⟩ := run_cons.mp hrest
      have hv := h (pre ++ [.clear]) v _ ⟨post, by simp [hms]⟩
        (run_snoc.mpr ⟨_, _, _, hpre, hstep, rfl⟩)
      cases step_moved hstep with
      | clear => exact (hv name hw hu).symm
    | _ => trivial
  · rintro h pre c' out' ⟨post, rfl⟩ hpre
    have hpre' : Along step Undisturbed (init : ChannelBase β σ) pre :=
      fun a m b hab t o ht => h a m (b ++ post) (by simp [hab]) t o ht
    refine (run_inv (I := fun _ c _ => Attended c) attended_init ?_ hpre hpre').registered
    intro _ t _ m u p ht hm hstep
    exact ht.moved hm (step_moved hstep)

/-- The name is emptied while a post for `A` is outstanding, and again when `B`, announced after
the thread has read the name, is no longer waited for. -/
def orderlyMoves : List (Move ℕ) :=
  [.send "A", .tryPend, .setName, .handleMessage [7], .readName, .take, .dealMsg (firstByte "A"),
    .store, .post, .clear, .pend, .answer, .send "A", .tryPend, .setName, .handleMessage [8],
    .readName, .take, .dealMsg (firstByte "A"), .store, .post, .pend, .answer, .send "B", .tryPend,
    .setName, .timeOut, .clear, .withdraw, .send "B", .tryPend, .setName]

theorem orderly_registered : ∃ (c : ChannelBase ℕ ℕ) (out : List (Reply ℕ)),
    run step init orderlyMoves = some (c, out) ∧ c.caller = .waiting "B" ∧
      out.map (fun r => r.recvBuf) = [[(7, 1)], [(8, 2)]] ∧
      ∀ pre c' out', pre <+: orderlyMoves →
        run step (init : ChannelBase ℕ ℕ) pre = some (c', out') → c'.Registered := by
  have hrun : (run step (init : ChannelBase ℕ ℕ) orderlyMoves).map (fun r =>
      (r.1.caller, r.2.map fun r => r.recvBuf)) =
        some (.waiting "B", [[(7, 1)], [(8, 2)]]) := by decide +kernel
  obtain ⟨⟨c, out⟩, hrun, hend⟩ := Option.map_eq_some_iff.mp hrun
  obtain ⟨hcaller, hout⟩ := Prod.mk.inj hend
  exact ⟨c, out, hrun, hcaller, hout, (registered_iff hrun).mpr (by decide +kernel)⟩

/-- The requester has its answer and has announced the next device before the name is emptied. -/
def hastyMoves : List (Move ℕ) :=
  [.send "A", .tryPend, .setName, .handleMessage [7], .readName, .take, .dealMsg (firstByte "A"),
    .store, .post, .pend, .answer, .send "B", .tryPend, .setName, .clear]

theorem announcement_lost :
    ¬ ∀ ms c out, run step (init : ChannelBase ℕ ℕ) ms = some (c, out) → c.Registered := by
  intro h
  have hrun : (run step (init : ChannelBase ℕ ℕ) hastyMoves).map
      (fun r => (r.1.caller, r.1.mapSem "B", r.1.msgHandle.name)) =
        some (.waiting "B", 0, "") := by decide +kernel
  obtain ⟨⟨c, out⟩, hrun, heq⟩ := Option.map_eq_some_iff.mp hrun
  obtain ⟨hcaller, hsem, hname⟩ : c.caller = .waiting "B" ∧ c.mapSem "B" = 0 ∧
      c.msgHandle.name = "" := by simpa using heq
  have hreg := h _ _ _ hrun "B" hcaller (by rw [Unposted, hsem]; rfl)
  rw [hname] at hreg
  exact absurd hreg (by decide)

end DataEngine.Channel.ChannelBase
