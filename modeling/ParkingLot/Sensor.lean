import ParkingLot.Machine.Busy
import ParkingLot.Machine.Run
import ParkingLot.Timer

/-!
# The distance sensor

`HCSR04` measures the echo pulse with a timer that the two edges of the echo pin start and stop.
What `get_distance_cm` returns is what the last fall left.

* `HCSR04`, `getDistanceCm`: the sensor, and a call under the handlers that execute meanwhile.
* `getDistanceCm_pulse`: a call with an echo. `call_lost`, `reading_lost`: a call without.
* **`own_iff`**: a sequence of calls measures its own distances exactly if no echo is lost.
-/

namespace ParkingLot

open Machine

/-! ## The driver -/

structure HCSR04 (T : Timer) where
  pulsetime : T.State
  pulsedur : UInt32
  distanceCm : UInt32

inductive Edge
  | rise
  | fall
  deriving DecidableEq, Repr

namespace HCSR04

variable {T : Timer}

variable (T) in
/-- The constructor, on a variable of static storage. -/
def init : HCSR04 T := ⟨T.reset (T.stop T.init 0) 0, 0, 0⟩

def isrRise (s : HCSR04 T) (t : ℕ) : HCSR04 T := { s with pulsetime := T.start s.pulsetime t }

def isrFall (s : HCSR04 T) (t : ℕ) : HCSR04 T :=
  let pulsetime := T.stop s.pulsetime t
  let pulsedur := (T.readUs pulsetime t).toUInt32
  { pulsetime := T.reset pulsetime t
    pulsedur := pulsedur
    distanceCm := (pulsedur * 343) / 20000 }

/-- The handler of an edge of the echo pin. -/
def isr (s : HCSR04 T) (e : Edge × ℕ) : HCSR04 T :=
  match e.1 with
  | .rise => s.isrRise e.2
  | .fall => s.isrFall e.2

def getDistCm (s : HCSR04 T) : UInt32 := s.distanceCm

end HCSR04

/-- The end of `wait_us(10)` and `wait_ms(300)`, begun at `t`. Both end at the first instant at
which main goes on after their time. -/
def waitEnd (b : Schedule ℕ) (t : ℕ) : ℕ := b.resume (b.resume (t + 10) + 300000)

theorem waitEnd_none (t : ℕ) : waitEnd .none t = t + 300010 := by
  simp only [waitEnd, Schedule.resume_none, Nat.add_assoc, Nat.reduceAdd]

/-- The edges that have been handled when the wait begun at `t` ends. -/
def handledBy (b : Schedule ℕ) (t : ℕ) (edges : List (Edge × ℕ)) : List (Edge × ℕ) :=
  (edges.map fun e => (e.1, b.handled e.2)).filter fun e => e.2 ≤ waitEnd b t

/-- `get_distance_cm`, called at `t`, with the edges of the echo pin. The value is read when the
wait ends, behind the edges that have been handled by then. -/
def getDistanceCm {T : Timer} (b : Schedule ℕ) (t : ℕ) (edges : List (Edge × ℕ)) (s : HCSR04 T) :
    UInt32 × HCSR04 T :=
  let s := run HCSR04.isr s (handledBy b t edges)
  (s.getDistCm, s)

/-! ## Pulses -/

structure Pulse where
  rise : ℕ
  fall : ℕ
  le : rise ≤ fall
  deriving DecidableEq, Repr

namespace Pulse

def length (p : Pulse) : ℕ := p.fall - p.rise

def edges (p : Pulse) : List (Edge × ℕ) := [(.rise, p.rise), (.fall, p.fall)]

/-- A pulse that ends within the wait is shorter than the wait. -/
theorem length_le {p : Pulse} {t : ℕ} (hrise : t ≤ p.rise) (hfall : p.fall ≤ waitEnd .none t) :
    p.length ≤ 300010 := by
  rw [waitEnd_none] at hfall
  unfold length
  omega

/-- The pulse as the handlers of its edges see it. -/
def handled (b : Schedule ℕ) (p : Pulse) : Pulse :=
  ⟨b.handled p.rise, b.handled p.fall, b.handled_mono p.le⟩

end Pulse

namespace HCSR04

variable {T : Timer}

/-- No pulse is being measured. -/
def Idle (s : HCSR04 T) : Prop := (T.fields s.pulsetime).Idle

theorem idle_init (hT : T.Lawful) : (init T).Idle := by
  unfold Idle init
  rw [hT.fields_reset, hT.fields_stop]
  exact Stopwatch.idle_stop_reset _ 0 0

theorem idle_isrFall (hT : T.Lawful) (s : HCSR04 T) (t : ℕ) : (s.isrFall t).Idle := by
  unfold Idle isrFall
  rw [hT.fields_reset, hT.fields_stop]
  exact Stopwatch.idle_stop_reset _ t t

/-- After the edges of a pulse. -/
def measure (s : HCSR04 T) (p : Pulse) : HCSR04 T := run isr s p.edges

theorem idle_measure (hT : T.Lawful) (s : HCSR04 T) (p : Pulse) : (s.measure p).Idle :=
  idle_isrFall hT _ _

/-- The arithmetic of `unsigned int`. -/
theorem isrFall_distanceCm (hT : T.Lawful) (s : HCSR04 T) (t : ℕ) :
    (s.isrFall t).distanceCm.toNat = (T.fields s.pulsetime).elapsed t * 343 % 2 ^ 32 / 20000 := by
  unfold isrFall
  rw [UInt32.toNat_div, UInt32.toNat_mul, hT.toNat_readUs, hT.fields_stop, Stopwatch.elapsed_stop]
  change _ % 2 ^ 32 * 343 % 2 ^ 32 / 20000 = _
  rw [Nat.mod_mul_mod]

/-- **The distance of a pulse.** -/
theorem measure_distanceCm (hT : T.Lawful) {s : HCSR04 T} (hs : s.Idle) (p : Pulse) :
    (s.measure p).distanceCm.toNat = p.length * 343 % 2 ^ 32 / 20000 := by
  have hrise : (T.fields (s.isrRise p.rise).pulsetime).elapsed p.fall = p.length := by
    rw [isrRise, hT.fields_start, (hs.start p.rise).elapsed]
    rfl
  exact (isrFall_distanceCm hT _ _).trans (by rw [← hrise]; rfl)

end HCSR04

/-! ## A call -/

section Call

variable {T : Timer}

theorem handledBy_pulse {b : Schedule ℕ} {t : ℕ} {p : Pulse} (h : p.fall ≤ waitEnd b t) :
    handledBy b t p.edges = (p.handled b).edges := by
  have hfall : (p.handled b).fall ≤ waitEnd b t := (Schedule.handled_le_iff (b.free_resume _)).mpr h
  refine List.filter_eq_self.mpr fun e he => decide_eq_true ?_
  rcases List.mem_pair.mp he with rfl | rfl
  · exact (p.handled b).le.trans hfall
  · exact hfall

theorem handledBy_late {b : Schedule ℕ} {t : ℕ} {p : Pulse} (h : ¬ p.fall ≤ waitEnd b t) :
    handledBy b t p.edges = [] ∨ handledBy b t p.edges = [(.rise, b.handled p.rise)] := by
  have hfall : ¬ b.handled p.fall ≤ waitEnd b t :=
    fun hc => h ((Schedule.handled_le_iff (b.free_resume _)).mp hc)
  by_cases hrise : b.handled p.rise ≤ waitEnd b t
  · exact Or.inr (by simp [handledBy, Pulse.edges, hrise, hfall])
  · exact Or.inl (by simp [handledBy, Pulse.edges, hrise, hfall])

/-- **A call with an echo.** It returns the distance of the pulse that the handlers saw, if they
have seen its fall by the end of the wait; else the distance of earlier. -/
theorem getDistanceCm_pulse (hT : T.Lawful) {s : HCSR04 T} (hs : s.Idle) (b : Schedule ℕ) (t : ℕ)
    (p : Pulse) :
    (getDistanceCm b t p.edges s).1.toNat =
      if p.fall ≤ waitEnd b t then (p.handled b).length * 343 % 2 ^ 32 / 20000
      else s.distanceCm.toNat := by
  by_cases h : p.fall ≤ waitEnd b t
  · rw [if_pos h, ← HCSR04.measure_distanceCm hT hs, getDistanceCm, handledBy_pulse h]
    rfl
  · rw [if_neg h, getDistanceCm]
    rcases handledBy_late h with hnil | hrise
    · rw [hnil]
      rfl
    · rw [hrise]
      rfl

end Call

/-! ## Sequences of calls -/

/-- A call at `t` that is answered within its wait, or not at all. -/
structure Trigger where
  t : ℕ
  echo : Option Pulse
  within : ∀ p ∈ echo, t ≤ p.rise ∧ p.fall ≤ t + 300010

namespace Trigger

def edges (c : Trigger) : List (Edge × ℕ) := c.echo.elim [] Pulse.edges

theorem fall_le {c : Trigger} {p : Pulse} (h : c.echo = some p) : p.fall ≤ waitEnd .none c.t := by
  rw [waitEnd_none]
  exact (c.within p h).2

theorem length_le {c : Trigger} {p : Pulse} (h : c.echo = some p) : p.length ≤ 300010 :=
  Pulse.length_le (c.within p h).1 (fall_le h)

end Trigger

/-- The centimetres of a pulse: the sound travels 343 m/s there and back. -/
def Pulse.distance (p : Pulse) : ℕ := p.length * 343 / 20000

/-- The distance of some pulse that ends within the wait. -/
def IsDistance (v : ℕ) : Prop := ∃ p : Pulse, p.length ≤ 300010 ∧ v = p.distance

namespace HCSR04

variable {T : Timer}

/-- The sensor after a call that no handler interrupts. -/
def call (s : HCSR04 T) (c : Trigger) : HCSR04 T := (getDistanceCm .none c.t c.edges s).2

/-- What it returns. -/
def reading (s : HCSR04 T) (c : Trigger) : ℕ := (getDistanceCm .none c.t c.edges s).1.toNat

theorem reading_eq (s : HCSR04 T) (c : Trigger) : reading s c = (call s c).distanceCm.toNat := rfl

theorem call_pulse {s : HCSR04 T} {c : Trigger} {p : Pulse} (h : c.echo = some p) :
    call s c = s.measure p := by
  rw [call, getDistanceCm, Trigger.edges, h]
  change run isr s (handledBy .none c.t p.edges) = _
  rw [handledBy_pulse (Trigger.fall_le h)]
  rfl

theorem call_lost {s : HCSR04 T} {c : Trigger} (h : c.echo = none) : call s c = s := by
  rw [call, getDistanceCm, Trigger.edges, h]
  rfl

theorem measure_eq_distance (hT : T.Lawful) {s : HCSR04 T} (hs : s.Idle) {p : Pulse}
    (hp : p.length ≤ 300010) : (s.measure p).distanceCm.toNat = p.distance := by
  rw [measure_distanceCm hT hs, Nat.mod_eq_of_lt (by omega)]
  rfl

/-- **An echo that arrives is measured.** -/
theorem reading_pulse (hT : T.Lawful) {s : HCSR04 T} (hs : s.Idle) {c : Trigger} {p : Pulse}
    (h : c.echo = some p) : reading s c = p.distance := by
  rw [reading_eq, call_pulse h, measure_eq_distance hT hs (Trigger.length_le h)]

/-- **After a lost echo** the distance of earlier is returned. -/
theorem reading_lost {s : HCSR04 T} {c : Trigger} (h : c.echo = none) :
    reading s c = s.distanceCm.toNat := by
  rw [reading_eq, call_lost h]

/-- Between two calls: no pulse is being measured, and the distance left is that of some pulse. -/
structure Ready (s : HCSR04 T) : Prop where
  idle : s.Idle
  distance : IsDistance s.distanceCm.toNat

theorem ready_init (hT : T.Lawful) : Ready (init T) :=
  ⟨idle_init hT, ⟨0, 0, le_rfl⟩, Nat.zero_le _, rfl⟩

theorem Ready.call (hT : T.Lawful) {s : HCSR04 T} (hs : Ready s) (c : Trigger) :
    Ready (call s c) := by
  cases h : c.echo with
  | none => rwa [call_lost h]
  | some p =>
    rw [call_pulse h]
    have hp := Trigger.length_le h
    exact ⟨idle_measure hT s p, p, hp, measure_eq_distance hT hs.idle hp⟩

theorem ready_run (hT : T.Lawful) (cs : List Trigger) : Ready (run call (init T) cs) :=
  run_induction (fun _ c hs => hs.call hT c) (ready_init hT) cs

variable (T) in
/-- A call that comes after `before` returns the distance of its own echo, or without one a value
that is no distance, and not that of an earlier echo. -/
def OwnReading (before : List Trigger) (c : Trigger) : Prop :=
  let v := reading (run call (init T) before) c
  match c.echo with
  | some p => v = p.distance
  | none => ¬ IsDistance v ∧ ∀ d ∈ before, ∀ p ∈ d.echo, v ≠ p.distance

theorem ownReading_iff (hT : T.Lawful) (before : List Trigger) (c : Trigger) :
    OwnReading T before c ↔ c.echo.isSome := by
  have hs := ready_run hT before
  unfold OwnReading
  cases h : c.echo with
  | some p => exact iff_of_true (reading_pulse hT hs.idle h) rfl
  | none =>
    rw [reading_lost h]
    exact iff_of_false (fun hc => hc.1 hs.distance) Bool.false_ne_true

variable (T) in
/-- Each call of a sequence, from the start-up on. -/
def OwnReadings (cs : List Trigger) : Prop :=
  ∀ before c after, cs = before ++ c :: after → OwnReading T before c

/-- **Every measurement is its own exactly if no echo is lost.** In a sequence of calls from the
start-up on, each call whose echo arrives returns the distance of that echo; a call whose echo is
lost returns a distance all the same. -/
theorem own_iff (hT : T.Lawful) (cs : List Trigger) :
    OwnReadings T cs ↔ ∀ c ∈ cs, c.echo.isSome := by
  constructor
  · intro h c hc
    obtain ⟨before, after, hcs⟩ := List.append_of_mem hc
    exact (ownReading_iff hT before c).mp (h before c after hcs)
  · rintro h before c after rfl
    exact (ownReading_iff hT before c).mpr (h c (by simp))

end HCSR04

/-- A car at 100 cm that comes closer, to 50 cm. -/
def twoEchoes : List Trigger :=
  [⟨0, some ⟨450, 6290, by decide⟩, by simp⟩, ⟨400000, some ⟨400450, 403370, by decide⟩, by simp⟩]

theorem own_twoEchoes : HCSR04.OwnReadings Timer.ideal twoEchoes :=
  (HCSR04.own_iff Timer.ideal_lawful twoEchoes).mpr (by decide)

/-- A car at 100 cm, then nothing in reach. -/
def lostEcho : List Trigger :=
  [⟨0, some ⟨450, 6290, by decide⟩, by simp⟩, ⟨400000, none, by simp⟩]

/-- **A lost echo is taken for the last one.** -/
theorem lost_not_own : ¬ ∀ (T : Timer) (cs : List Trigger), T.Lawful →
    HCSR04.OwnReadings T cs := by
  intro h
  have h' := h Timer.ideal lostEcho Timer.ideal_lawful (lostEcho.take 1) _ [] rfl
  exact h'.2 _ List.mem_cons_self ⟨450, 6290, by decide⟩ rfl (by decide +kernel)

end ParkingLot
