import Mathlib.Data.List.Basic
import Mathlib.Tactic.Ring

namespace Pane.Heartbeats

/-- One iteration of the main loop of a looper: how long it waits for events, and
how long its dispatch takes. -/
structure Iteration where
  wait : Nat
  work : Nat

/-- When the heartbeat beats: at the top of each iteration, before it waits. The
last beat is that of the iteration that is under way. -/
def beatTimes : Nat → List Iteration → List Nat
  | start, [] => [start]
  | start, i :: is => start :: beatTimes (start + i.wait + i.work) is

/-- What `current` reads at some time. -/
def current (times : List Nat) (t : Nat) : Nat := times.countP (· ≤ t)

/-- When one pass of the watchdog's loop reads the heartbeat, the clock where it
begins to track a stall, and the clock again for `elapsed`. -/
structure Moment where
  read : Nat
  now : Nat
  asked : Nat
  deriving DecidableEq

/-- The variables of the watchdog thread. -/
structure Watchdog where
  lastTick : Nat
  stallStart : Option Nat

variable (timeout : Nat) (beats : Nat → Nat)

/-- The body of the loop behind its sleep, with what it reports. -/
def Watchdog.check (w : Watchdog) (m : Moment) : Watchdog × Option Nat :=
  if beats m.read ≠ w.lastTick then (⟨beats m.read, none⟩, none)
  else
    let start := w.stallStart.getD m.now
    if timeout ≤ m.asked - start then (⟨beats m.read, none⟩, some (m.asked - start))
    else (⟨w.lastTick, some start⟩, none)

/-- All calls of `on_stall`, each with the pass that makes it. -/
def watch : Watchdog → List Moment → List (Moment × Nat)
  | _, [] => []
  | w, m :: ms =>
    ((w.check timeout beats m).2.map fun stall => (m, stall)).toList ++
      watch (w.check timeout beats m).1 ms

/-- The thread reads the heartbeat once before its loop. -/
def spawn (t : Nat) (ms : List Moment) : List (Moment × Nat) :=
  watch timeout beats ⟨beats t, none⟩ ms

/-- Half the timeout. -/
def checkInterval : Nat := timeout / 2

/-- The passes of a thread that is asleep since `t`: each sleeps at least an
interval, and may be delayed anywhere. -/
def Timed (interval : Nat) : Nat → List Moment → Prop
  | _, [] => True
  | t, m :: ms => t + interval ≤ m.read ∧ m.read ≤ m.now ∧ m.now ≤ m.asked ∧
      Timed interval m.asked ms

variable {timeout beats} {w : Watchdog} {m : Moment} {ms : List Moment} {t interval : Nat}

section Sound

/-- What the variables tell at time `t`: the heartbeat was the same when the thread
last looked, and an interval before the stall began. -/
def Remembers (beats : Nat → Nat) (interval t : Nat) (w : Watchdog) : Prop :=
  ∃ a, a ≤ t ∧ beats a = w.lastTick ∧ ∀ start, w.stallStart = some start →
    start ≤ t ∧ ∃ b, b ≤ a ∧ beats b = w.lastTick ∧ b + interval ≤ start

def Stalled (timeout : Nat) (beats : Nat → Nat) (interval : Nat) (r : Moment × Nat) : Prop :=
  timeout ≤ r.2 ∧ ∃ a, a ≤ r.1.read ∧ beats a = beats r.1.read ∧ a + interval + r.2 ≤ r.1.asked

variable (timeout) in
theorem remembers_check (h : Remembers beats interval t w) (hslept : t + interval ≤ m.read)
    (hnow : m.read ≤ m.now) (hasked : m.now ≤ m.asked) :
    Remembers beats interval m.asked (w.check timeout beats m).1 ∧
      ∀ stall, (w.check timeout beats m).2 = some stall →
        Stalled timeout beats interval (m, stall) := by
  obtain ⟨a, ha, hlast, hstart⟩ := h
  have hread : m.read ≤ m.asked := by omega
  rw [Watchdog.check]
  split
  · refine ⟨⟨m.read, hread, rfl, fun _ hnone => by cases hnone⟩, fun _ hnone => by cases hnone⟩
  · next hsame =>
    have hsame : beats m.read = w.lastTick := not_not.mp hsame
    -- where the stall begins, the heartbeat has stood for an interval
    obtain ⟨hbegun, b, hb, hbeats, hbegin⟩ : w.stallStart.getD m.now ≤ m.asked ∧ ∃ b, b ≤ m.read ∧
        beats b = w.lastTick ∧ b + interval ≤ w.stallStart.getD m.now := by
      cases hstall : w.stallStart with
      | none =>
        rw [Option.getD_none]
        exact ⟨hasked, a, by omega, hlast, by omega⟩
      | some start =>
        obtain ⟨hbegun, b, hb, hbeats, hbegin⟩ := hstart start hstall
        rw [Option.getD_some]
        exact ⟨by omega, b, by omega, hbeats, hbegin⟩
    dsimp only
    split
    · next hlong =>
      refine ⟨⟨m.read, hread, rfl, fun _ hnone => by cases hnone⟩, fun stall hstall => ?_⟩
      cases hstall
      refine ⟨hlong, b, hb, hbeats.trans hsame.symm, ?_⟩
      dsimp only
      omega
    · refine ⟨⟨m.read, hread, hsame, fun start hsome => ?_⟩, fun _ hnone => by cases hnone⟩
      cases hsome
      exact ⟨hbegun, b, hb, hbeats, hbegin⟩

theorem stalled_watch (h : Remembers beats interval t w) (hms : Timed interval t ms)
    {r : Moment × Nat} (hr : r ∈ watch timeout beats w ms) : Stalled timeout beats interval r := by
  induction ms generalizing w t with
  | nil => cases hr
  | cons m ms ih =>
    obtain ⟨hslept, hnow, hasked, hrest⟩ := hms
    obtain ⟨hnext, hreport⟩ := remembers_check timeout h hslept hnow hasked
    obtain hr | hr := List.mem_append.mp hr
    · obtain ⟨stall, hstall, rfl⟩ := Option.map_eq_some_iff.mp (Option.mem_toList.mp hr)
      exact hreport stall hstall
    · exact ih hnext hrest hr

theorem unbeaten_of_current_eq {times : List Nat} {a b : Nat} (hle : a ≤ b)
    (h : current times a = current times b) : ∀ t ∈ times, t ≤ a ∨ b < t := by
  induction times with
  | nil => exact List.forall_mem_nil _
  | cons t times ih =>
    have hmono : times.countP (· ≤ a) ≤ times.countP (· ≤ b) :=
      List.countP_mono_left fun u _ hu => by
        simp only [decide_eq_true_eq] at hu ⊢
        omega
    simp only [current, List.countP_cons, decide_eq_true_eq] at h
    rw [List.forall_mem_cons]
    by_cases ha : t ≤ a
    · have hb : t ≤ b := by omega
      rw [if_pos ha, if_pos hb] at h
      exact ⟨.inl ha, ih (by rw [current, current]; omega)⟩
    · rw [if_neg ha] at h
      by_cases hb : t ≤ b
      · rw [if_pos hb] at h
        omega
      · rw [if_neg hb] at h
        exact ⟨.inr (by omega), ih (by rw [current, current]; omega)⟩

/-- No false alarm. Whatever delays the thread of the watchdog, a report of a stall
was preceded by a time without a beat that was longer than the stall by an interval,
up to the time that passed within the very pass that reports it. -/
theorem reports_are_stalls (timeout start t : Nat) (is : List Iteration) (ms : List Moment)
    (hms : Timed (checkInterval timeout) t ms) (m : Moment) (stall : Nat)
    (hr : (m, stall) ∈ spawn timeout (current (beatTimes start is)) t ms) :
    timeout ≤ stall ∧ ∃ a ≤ m.read, a + checkInterval timeout + stall ≤ m.asked ∧
      ∀ beat ∈ beatTimes start is, beat ≤ a ∨ m.read < beat := by
  have hstart : Remembers (current (beatTimes start is)) (checkInterval timeout) t
      ⟨current (beatTimes start is) t, none⟩ :=
    ⟨t, Nat.le_refl t, rfl, fun _ hnone => by cases hnone⟩
  obtain ⟨hlong, a, ha, hbeats, hsum⟩ := stalled_watch hstart hms hr
  exact ⟨hlong, a, ha, hsum, unbeaten_of_current_eq ha hbeats⟩

theorem reports_are_stalls_waiting :
    4 ≤ 4 ∧ ∃ a ≤ 6, a + checkInterval 4 + 4 ≤ 6 ∧
      ∀ beat ∈ beatTimes 0 [⟨20, 0⟩], beat ≤ a ∨ 6 < beat :=
  reports_are_stalls 4 0 0 [⟨20, 0⟩] [⟨2, 2, 2⟩, ⟨4, 4, 4⟩, ⟨6, 6, 6⟩]
    (by simp [Timed, checkInterval]) ⟨6, 6, 6⟩ 4 (by decide)

end Sound

section Complete

def moment (t : Nat) : Moment := ⟨t, t, t⟩

def regular (interval : Nat) : Nat → Nat → List Moment
  | _, 0 => []
  | t, n + 1 => moment (t + interval) :: regular interval (t + interval) n

def anew (beats : Nat → Nat) (t : Nat) : Watchdog := ⟨beats t, none⟩

section Passes

variable {u start : Nat}

theorem check_changed (h : beats u ≠ w.lastTick) :
    w.check timeout beats (moment u) = (anew beats u, none) :=
  if_pos h

theorem check_same (h : beats u = w.lastTick) (hstart : w.stallStart.getD u = start) :
    w.check timeout beats (moment u) = if timeout ≤ u - start then (anew beats u, some (u - start))
      else (⟨beats u, some start⟩, none) := by
  simp [Watchdog.check, moment, anew, h, hstart]

theorem check_first (hpositive : 0 < interval) (h : beats (t + interval) = beats t) :
    (anew beats t).check (2 * interval) beats (moment (t + interval)) =
      (⟨beats t, some (t + interval)⟩, none) := by
  rw [check_same h rfl, h]
  exact if_neg (by dsimp only [anew, Option.getD]; omega)

theorem check_second (hpositive : 0 < interval)
    (h : beats (t + interval + interval) = beats t) :
    Watchdog.check (2 * interval) beats ⟨beats t, some (t + interval)⟩
      (moment (t + interval + interval)) = (⟨beats t, some (t + interval)⟩, none) := by
  rw [check_same h rfl, h]
  exact if_neg (by dsimp only [Option.getD]; omega)

theorem check_third (h : beats (t + interval + interval + interval) = beats t) :
    Watchdog.check (2 * interval) beats ⟨beats t, some (t + interval)⟩
      (moment (t + interval + interval + interval)) =
        (anew beats (t + interval + interval + interval), some (2 * interval)) := by
  have hlong : t + interval + interval + interval - (t + interval) = 2 * interval := by omega
  rw [check_same h rfl, Option.getD_some, hlong, if_pos (Nat.le_refl _)]

end Passes

theorem length_watch_anew (hpositive : 0 < interval) (n : Nat)
    (hsame : ∀ u, t ≤ u → u ≤ t + n * interval → beats u = beats t) :
    (watch (2 * interval) beats (anew beats t) (regular interval t n)).length = n / 3 := by
  induction n using Nat.strong_induction_on generalizing t with
  | h n ih =>
    obtain _ | _ | _ | n := n
    · rfl
    · have hfirst := check_first hpositive (hsame (t + interval) (by omega) (by omega))
      simp only [regular, watch, hfirst]
      rfl
    · have hfirst := check_first hpositive (hsame (t + interval) (by omega) (by omega))
      have hsecond :=
        check_second hpositive (hsame (t + interval + interval) (by omega) (by omega))
      simp only [regular, watch, hfirst, hsecond]
      rfl
    · have hn : (n + 1 + 1 + 1) * interval = n * interval + 3 * interval := by ring
      rw [hn] at hsame
      have hfirst := check_first hpositive (hsame (t + interval) (by omega) (by omega))
      have hsecond :=
        check_second hpositive (hsame (t + interval + interval) (by omega) (by omega))
      have hthree := hsame (t + interval + interval + interval) (by omega) (by omega)
      have hrest := ih n (by omega) (t := t + interval + interval + interval) fun u hu hlast => by
        rw [hthree]
        exact hsame u (by omega) (by omega)
      simp only [regular, watch, hfirst, hsecond, check_third hthree]
      simp only [Option.map_none, Option.map_some, Option.toList_none, Option.toList_some,
        List.nil_append, List.singleton_append, List.length_cons, hrest]
      omega

/-- While an iteration lasts it is reported at every third pass behind the first one,
be it stuck in a callback or only waiting for events. So a stall of up to twice the
timeout may go unnoticed, one of that length is noticed, and a longer one is reported
again and again. The timeout is twice the check interval here: half of it is not
rounded down. -/
theorem reports_of_iteration (interval start t n : Nat) (hpositive : 0 < interval)
    (is : List Iteration) (stallStart : Option Nat)
    (hbegins : ∃ beat ∈ beatTimes start is, t < beat ∧ beat ≤ t + interval)
    (hlasts : ∀ beat ∈ beatTimes start is, beat ≤ t + interval ∨ t + (n + 1) * interval < beat) :
    (watch (2 * interval) (current (beatTimes start is)) ⟨current (beatTimes start is) t, stallStart⟩
      (regular (checkInterval (2 * interval)) t (n + 1))).length = n / 3 := by
  have hhalf : checkInterval (2 * interval) = interval := by
    rw [checkInterval]
    omega
  have hchanged : current (beatTimes start is) (t + interval) ≠ current (beatTimes start is) t := by
    intro hsame
    obtain ⟨beat, hbeat, hafter, hbefore⟩ := hbegins
    have hgap := unbeaten_of_current_eq (Nat.le_add_right t interval) hsame.symm beat hbeat
    omega
  rw [hhalf, regular, watch, check_changed hchanged]
  dsimp only [Option.map_none, Option.toList_none]
  rw [List.nil_append]
  refine length_watch_anew hpositive n fun u hu hlast => ?_
  apply List.countP_congr
  intro beat hbeat
  have haround := hlasts beat hbeat
  have hend : t + (n + 1) * interval = t + interval + n * interval := by ring
  simp only [decide_eq_true_eq]
  omega

theorem reports_of_iteration_waiting :
    (watch 4 (current (beatTimes 1 [⟨20, 0⟩])) ⟨current (beatTimes 1 [⟨20, 0⟩]) 0, none⟩
      (regular (checkInterval 4) 0 7)).length = 2 :=
  reports_of_iteration 2 1 0 6 (by decide) [⟨20, 0⟩] none (by decide) (by decide)

end Complete

end Pane.Heartbeats
