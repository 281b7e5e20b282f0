import DataEngine.Plug.IEC104.Transaction

/-!
The clock a clock command sets.

A time is sent in seven octets whose upper bits are flags. The octets are taken as they are, the
flags with the numbers, and the milliseconds are shifted by their own low octet.
-/

namespace DataEngine.TransIEC104

open ConfigParse Lib.Effect

/-! ### Seven octets -/

/-- A time of this century, to the millisecond. -/
structure DateTime where
  year : ℕ
  mon : ℕ
  day : ℕ
  hour : ℕ
  min : ℕ
  /-- of the minute -/
  milliSec : ℕ
  year_bounds : 2000 ≤ year ∧ year ≤ 2099
  mon_bounds : 1 ≤ mon ∧ mon ≤ 12
  day_bounds : 1 ≤ day ∧ day ≤ 31
  hour_lt : hour < 24
  min_lt : min < 60
  milliSec_lt : milliSec < 60000

/-- The bits an octet has besides its number: invalid and reserved with the minute, summer time
and reserved with the hour, the day of the week with the day, reserved with the month and the
year. -/
structure FlagBits where
  min : Fin 4
  hour : Fin 8
  day : Fin 8
  mon : Fin 16
  year : Fin 2
  deriving DecidableEq

def FlagBits.none : FlagBits := ⟨0, 0, 0, 0, 0⟩

/-- `CP56Time2a` -/
def cp56Octets (d : DateTime) (g : FlagBits) : List UInt8 :=
  [.ofNat (d.milliSec % 256), .ofNat (d.milliSec / 256), .ofNat (d.min + 64 * g.min),
    .ofNat (d.hour + 32 * g.hour), .ofNat (d.day + 32 * g.day), .ofNat (d.mon + 16 * g.mon),
    .ofNat (d.year - 2000 + 128 * g.year)]

/-! ### What the handler reads -/

variable {R V : Type} {env : Env R V} {s : Plug} {f : Frame}

/-- The seconds made of the two octets of the milliseconds. -/
def clockSec (env : Env R V) (lo hi : ℕ) : ℕ :=
  ((shiftLeft env hi (8 + lo)).tdiv 1000 % 2 ^ 32).toNat

variable (env s) in
/-- The time set by a command that has its octets, which are not touched before. -/
lemma clockFrame_time (hlen : 22 ≤ f.length) :
    ∃ buf time, clockFrame env s f = .ok (buf, time) ∧ time.year = (f.getD 21 0).toNat + 2000 ∧
      time.mon = (f.getD 20 0).toNat ∧ time.day = (f.getD 19 0).toNat ∧
      time.hour = (f.getD 18 0).toNat ∧ time.min = (f.getD 17 0).toNat ∧
      time.sec = clockSec env (f.getD 15 0).toNat (f.getD 16 0).toNat := by
  have hpeek {buf : Frame} {i : ℕ} (h : i ≤ buf.length) : peek buf i = .ok (buf.getD i 0) :=
    if_pos h
  obtain ⟨head, hhead⟩ := exists_setAPCI s (f.getD 1 0).toNat (by omega : 6 ≤ f.length)
  have hheadLen := setAPCI_length hhead
  obtain ⟨buf, hbuf⟩ : ∃ buf, pokes head [(8, actCon), (9, 0)] = .ok buf := by
    refine exists_pokes fun w hw => ?_
    simp only [List.mem_cons, List.not_mem_nil, or_false] at hw
    rcases hw with rfl | rfl <;> omega
  have hlen' : buf.length = f.length := (pokes_length hbuf).trans hheadLen
  have hget (i : ℕ) (h : 10 ≤ i) : buf.getD i 0 = f.getD i 0 := by
    rw [pokes_getD_of_ne hbuf, setAPCI_rest hhead (by omega)]
    intro w hw
    simp only [List.mem_cons, List.not_mem_nil, or_false] at hw
    rcases hw with rfl | rfl <;> omega
  have hread (i : ℕ) (h : 10 ≤ i) (hi : i ≤ f.length) : peek buf i = .ok (f.getD i 0) := by
    rw [hpeek (by omega), hget i h]
  refine ⟨buf, { env.getSysTime s.log with
    year := (f.getD 21 0).toNat + 2000, mon := (f.getD 20 0).toNat
    day := (f.getD 19 0).toNat, hour := (f.getD 18 0).toNat, min := (f.getD 17 0).toNat
    sec := clockSec env (f.getD 15 0).toNat (f.getD 16 0).toNat }, ?_, rfl, rfl, rfl, rfl, rfl, rfl⟩
  simp only [clockFrame, apHeadLen, hpeek (by omega : 1 ≤ f.length), hhead, hbuf,
    hread 15 (by omega) (by omega), hread (15 + 1) (by omega) (by omega),
    hread (15 + 2) (by omega) (by omega), hread (15 + 3) (by omega) (by omega),
    hread (15 + 4) (by omega) (by omega), hread (15 + 5) (by omega) (by omega),
    hread (15 + 6) (by omega) (by omega), bind, Except.bind, clockSec]

variable [Double R]

/-- The handler sets the clock once, before it sends anything. -/
lemma log_processCCsNa1 {buf : Frame} {time : SysTime}
    (h : clockFrame env s f = .ok (buf, time)) :
    ∃ rest, (exec (processCCsNa1 env f) s).2.log = s.log ++ .setSysTime time :: rest ∧
      ∀ other, Ev.setSysTime other ∉ rest := by
  unfold processCCsNa1
  rw [exec_get_bind, exec_of_bind, h]
  simp only [exec_modify_bind]
  set t : Plug := { s with log := s.log ++ [.setSysTime time] } with ht
  rcases exec_printFrame env "时钟同步" buf t with hp | ⟨e, hp⟩
  · rw [exec_bind_ok hp]
    exact ⟨[.sent s.fd buf], by simp [engineSendFrame, ht], by simp⟩
  · rw [exec_bind_error hp]
    exact ⟨[], by simp [ht], by simp⟩

variable (env s f) in
/-- Handling the clock command calls `setSysTime` once, with the time that was sent. -/
def SetsClock (d : DateTime) : Prop :=
  ∃ time rest, (exec (processCCsNa1 env f) s).2.log = s.log ++ .setSysTime time :: rest ∧
    (∀ other, Ev.setSysTime other ∉ rest) ∧
    time.year = d.year ∧ time.mon = d.mon ∧ time.day = d.day ∧ time.hour = d.hour ∧
    time.min = d.min ∧ time.sec = d.milliSec / 1000

/-- The octets of a frame that carries a time. -/
lemma octets_of_carried {d : DateTime} {g : FlagBits}
    (h : (f.drop 15).take 7 = cp56Octets d g) :
    22 ≤ f.length ∧ (f.getD 15 0).toNat = d.milliSec % 256 ∧
      (f.getD 16 0).toNat = d.milliSec / 256 ∧ (f.getD 17 0).toNat = d.min + 64 * g.min ∧
      (f.getD 18 0).toNat = d.hour + 32 * g.hour ∧ (f.getD 19 0).toNat = d.day + 32 * g.day ∧
      (f.getD 20 0).toNat = d.mon + 16 * g.mon ∧
      (f.getD 21 0).toNat = d.year - 2000 + 128 * g.year := by
  have hlen := congrArg List.length h
  simp only [List.length_take, List.length_drop, cp56Octets, List.length_cons,
    List.length_nil] at hlen
  have hget (j : ℕ) (hj : j < 7) : f.getD (15 + j) 0 = (cp56Octets d g).getD j 0 := by
    rw [← h, List.getD_eq_getElem?_getD, List.getD_eq_getElem?_getD, List.getElem?_take_of_lt hj,
      List.getElem?_drop]
  have hnat {n : ℕ} (hn : n < 256) : (UInt8.ofNat n).toNat = n := UInt8.toNat_ofNat_of_lt hn
  have hyear := d.year_bounds
  have hmon := d.mon_bounds
  have hday := d.day_bounds
  have hhour := d.hour_lt
  have hmin := d.min_lt
  have hms := d.milliSec_lt
  have g1 := g.min.isLt
  have g2 := g.hour.isLt
  have g3 := g.day.isLt
  have g4 := g.mon.isLt
  have g5 := g.year.isLt
  refine ⟨by omega, ?_, ?_, ?_, ?_, ?_, ?_, ?_⟩
  · exact (congrArg UInt8.toNat (hget 0 (by omega))).trans (hnat (by omega))
  · exact (congrArg UInt8.toNat (hget 1 (by omega))).trans (hnat (by omega))
  · exact (congrArg UInt8.toNat (hget 2 (by omega))).trans (hnat (by omega))
  · exact (congrArg UInt8.toNat (hget 3 (by omega))).trans (hnat (by omega))
  · exact (congrArg UInt8.toNat (hget 4 (by omega))).trans (hnat (by omega))
  · exact (congrArg UInt8.toNat (hget 5 (by omega))).trans (hnat (by omega))
  · exact (congrArg UInt8.toNat (hget 6 (by omega))).trans (hnat (by omega))

variable (env) in
omit [Double R] in
/-- The seconds of shifts that are defined. -/
lemma clockSec_iff {lo hi : ℕ} (hlo : lo < 24) (hhi : hi < 235) :
    clockSec env lo hi = (256 * hi + lo) / 1000 ↔
      lo = 0 ∨ hi = 0 ∨ (hi = 1 ∧ lo = 1) ∨ (hi = 2 ∧ lo = 23) := by
  have htable : ∀ hi < 235, ∀ lo < 24,
      (((Int.bmod ((hi : ℕ) * 2 ^ (8 + lo)) (2 ^ 32)).tdiv 1000) % 2 ^ 32).toNat =
        (256 * hi + lo) / 1000 ↔
      lo = 0 ∨ hi = 0 ∨ (hi = 1 ∧ lo = 1) ∨ (hi = 2 ∧ lo = 23) := by
    decide +kernel
  unfold clockSec shiftLeft
  rw [if_pos (by omega)]
  exact htable hi hhi lo hlo

/-- The milliseconds of which the handler makes the right seconds. -/
def SecondsRead (milliSec : ℕ) : Prop :=
  milliSec % 256 = 0 ∨ milliSec < 24 ∨ milliSec = 257 ∨ milliSec = 535

instance (milliSec : ℕ) : Decidable (SecondsRead milliSec) := by
  unfold SecondsRead
  infer_instance

omit [Double R] in
/-- Whatever a shift by too much gives, the seconds are right. -/
lemma clockSec_all_iff {milliSec : ℕ} (h : milliSec < 60000) :
    (∀ longShift, clockSec { env with longShift := longShift } (milliSec % 256) (milliSec / 256) =
      milliSec / 1000) ↔ SecondsRead milliSec := by
  have hsplit : 256 * (milliSec / 256) + milliSec % 256 = milliSec := Nat.div_add_mod _ _
  unfold SecondsRead
  by_cases hlo : milliSec % 256 < 24
  · have hiff (longShift : ℕ → ℕ → ℤ) := clockSec_iff { env with longShift := longShift } hlo
      (by omega : milliSec / 256 < 235)
    simp only [hsplit] at hiff
    simp only [hiff, forall_const]
    omega
  · -- an undefined shift may give a minute
    constructor
    · intro hall
      have h60 := hall fun _ _ => 60000
      have hsec : clockSec { env with longShift := fun _ _ => 60000 } (milliSec % 256)
          (milliSec / 256) = 60 := by
        unfold clockSec shiftLeft
        rw [if_neg (by omega)]
        rfl
      omega
    · omega

lemma FlagBits.eq_none {g : FlagBits} (hmin : (g.min : ℕ) = 0) (hhour : (g.hour : ℕ) = 0)
    (hday : (g.day : ℕ) = 0) (hmon : (g.mon : ℕ) = 0) (hyear : (g.year : ℕ) = 0) :
    g = FlagBits.none := by
  obtain ⟨min, hour, day, mon, year⟩ := g
  obtain rfl : min = 0 := Fin.ext hmin
  obtain rfl : hour = 0 := Fin.ext hhour
  obtain rfl : day = 0 := Fin.ext hday
  obtain rfl : mon = 0 := Fin.ext hmon
  obtain rfl : year = 0 := Fin.ext hyear
  rfl

lemma setsClock_flags {d : DateTime} {g : FlagBits} (h : (f.drop 15).take 7 = cp56Octets d g) :
    SetsClock env s f d ↔ g = FlagBits.none ∧
      clockSec env (d.milliSec % 256) (d.milliSec / 256) = d.milliSec / 1000 := by
  obtain ⟨hlen, hlo, hhi, hmin, hhour, hday, hmon, hyear⟩ := octets_of_carried h
  obtain ⟨buf, time, htime, h1, h2, h3, h4, h5, h6⟩ := clockFrame_time env s hlen
  obtain ⟨rest, hlog, hrest⟩ := log_processCCsNa1 htime
  have hbounds := d.year_bounds
  rw [hlo, hhi] at h6
  constructor
  · rintro ⟨time', rest', hlog', -, e1, e2, e3, e4, e5, e6⟩
    obtain ⟨rfl, -⟩ : time = time' ∧ rest = rest' := by
      have := List.append_cancel_left (hlog.symm.trans hlog')
      simpa using this
    refine ⟨FlagBits.eq_none ?_ ?_ ?_ ?_ ?_, by rw [← h6, e6]⟩ <;> omega
  · rintro ⟨rfl, hsec⟩
    have hz : ((FlagBits.none.min : ℕ) = 0 ∧ (FlagBits.none.hour : ℕ) = 0 ∧
        (FlagBits.none.day : ℕ) = 0 ∧ (FlagBits.none.mon : ℕ) = 0) ∧
        (FlagBits.none.year : ℕ) = 0 := by
      decide
    exact ⟨time, rest, hlog, hrest, by omega, by omega, by omega, by omega, by omega,
      by rw [h6, hsec]⟩

variable (env) in
/-- **Clock synchronisation**: whatever an undefined shift gives, the clock is set to the time
that was sent, if and only if no flag is set and the milliseconds are among those that survive
the shift. -/
theorem setsClock_iff (s : Plug) (f : Frame) (d : DateTime) (g : FlagBits)
    (h : (f.drop 15).take 7 = cp56Octets d g) :
    (∀ longShift, SetsClock { env with longShift := longShift } s f d) ↔
      g = FlagBits.none ∧ SecondsRead d.milliSec := by
  simp only [setsClock_flags h, forall_and, forall_const]
  rw [clockSec_all_iff d.milliSec_lt]

/-- The first of January 2024, to the millisecond. -/
def newYear (milliSec : ℕ) (h : milliSec < 60000) : DateTime :=
  ⟨2024, 1, 1, 0, 0, milliSec, by decide, by decide, by decide, by decide, by decide, h⟩

/-- A clock command with the octets of a time. -/
def clockWith (octets : List UInt8) : Frame :=
  [0x68, 0x14, 0x00, 0x00, 0x00, 0x00, 103, 1, 6, 0, 1, 0, 0, 0, 0] ++ octets

theorem midnight_set : SetsClock (tableEnv 0 0 []) Plug.init
    (clockWith (cp56Octets (newYear 0 (by decide)) FlagBits.none)) (newYear 0 (by decide)) :=
  (setsClock_iff (tableEnv 0 0 []) Plug.init _ (newYear 0 (by decide)) FlagBits.none rfl).mpr
    ⟨rfl, by decide⟩ fun _ _ => 0

/-- 1.034 s past midnight on a Monday: the seconds are those of `4 << 18`, and the day has the
day of the week in it. -/
theorem monday_misread : ¬ SetsClock (tableEnv 0 0 []) Plug.init
    (clockWith (cp56Octets (newYear 1034 (by decide)) { FlagBits.none with day := 1 }))
    (newYear 1034 (by decide)) := by
  rintro ⟨time, rest, hlog, -, -, -, hday, -, -, hsec⟩
  have htime : (exec (processCCsNa1 (tableEnv 0 0 []) (clockWith (cp56Octets
      (newYear 1034 (by decide)) { FlagBits.none with day := 1 }))) Plug.init).2.log.head? =
        some (.setSysTime ⟨0, 1048, 0, 0, 33, 1, 2024, 0⟩) := by
    decide +kernel
  rw [hlog] at htime
  obtain rfl : time = ⟨0, 1048, 0, 0, 33, 1, 2024, 0⟩ := by simpa [Plug.init] using htime
  exact absurd hsec (by decide)

end DataEngine.TransIEC104
