import Kernel391.Devices.Rtc
import Kernel391.Foundations.Runs
import Kernel391.Foundations.Spacing

/-! The rates of the virtual clocks, and what the clock calls of one terminal do to
another's. A countdown that has run out waits until a process of its own terminal is
interrupted; the moments of the virtual interrupts are picked greedily among those. -/
namespace Kernel391
open Kernel391.Foundations
set_option autoImplicit false

namespace Rtc

/-! ## The rate -/

/-- `n` hardware interrupts; `running i` is the terminal of the process that the `i`-th one finds. -/
def ticks (r : Rtc) (running : ℕ → ℕ) : ℕ → Rtc
  | 0 => r
  | n + 1 => (ticks r running n).rtcInterrupt (running n)

/-- The virtual interrupts raised for terminal `t` in the first `n` hardware interrupts. -/
def raised (r : Rtc) (running : ℕ → ℕ) (t : ℕ) : ℕ → ℕ
  | 0 => 0
  | n + 1 => raised r running t n + if running n = t ∧ (ticks r running n).raises (running n) then 1 else 0

/-- The clock of terminal `t` has just been set to frequency `f`: by `rtc_open`, or by an accepted
`rtc_write` on a clock that was opened before. -/
def SetTo (t f : ℕ) (r : Rtc) : Prop :=
  (∃ r₀ : Rtc, r = r₀.opened t ∧ f = 2) ∨
    f ≠ 0 ∧ ∃ (r₀ : Rtc) (buf : ℕ) (nbytes : ℤ), r₀.baseF = rtcVBaseF ∧ r₀.rtcWrite t buf f nbytes = .ok (0, r)

section Rate
variable {r : Rtc} {running : ℕ → ℕ} {t c f n : ℕ}

theorem rtcInterrupt_interrupt (r : Rtc) (t : ℕ) :
    (r.rtcInterrupt t).interrupt = if r.raises t then Function.update r.interrupt t 1 else r.interrupt := by
  unfold rtcInterrupt raises
  by_cases he : r.rtcVEnable = 1
  · by_cases h0 : r.countdown t = 0
    · simp only [if_pos he, h0, or_true, decide_true, ↓reduceIte]
    · simp only [h0, he, ne_eq, not_true, or_self, decide_false, Bool.false_eq_true, ↓reduceIte]
  · simp only [he, ne_eq, not_false_eq_true, true_or, decide_true, ↓reduceIte]

/-- The clock counts down from `c`. -/
structure CountsFrom (r : Rtc) (t c d : ℕ) : Prop where
  enabled : r.rtcVEnable = 1
  countNum : r.countNum t = c
  countDown : r.countDown t = d

theorem restart_countsFrom (r : Rtc) (he : r.rtcVEnable = 1) :
    CountsFrom (r.restart t f) t (r.baseF / f) (r.baseF / f) :=
  ⟨he, Function.update_self _ _ _, Function.update_self _ _ _⟩

theorem SetTo.countsFrom (h : SetTo t f r) :
    0 < rtcVBaseF / f ∧ CountsFrom r t (rtcVBaseF / f) (rtcVBaseF / f) := by
  rcases h with ⟨r₀, rfl, rfl⟩ | ⟨hf, r₀, buf, nbytes, hbase, hw⟩
  · exact ⟨by decide, restart_countsFrom _ rfl⟩
  · unfold rtcWrite at hw
    split at hw
    · cases hw
    · split at hw
      · cases hw
      · split at hw
        · cases hw
        · next hle =>
          simp only [Except.ok.injEq, Prod.mk.injEq, true_and] at hw
          subst hw
          rw [← hbase] at hle ⊢
          exact ⟨Nat.div_pos (Nat.not_lt.mp hle) (Nat.pos_of_ne_zero hf),
            restart_countsFrom { r₀ with rtcVEnable := 1 } rfl⟩

theorem rtcInterrupt_countsFrom (ht : t < 3) {d : ℕ} (h : CountsFrom r t c d) (u : ℕ) :
    CountsFrom (r.rtcInterrupt u) t c (if u = t ∧ r.raises u then c else d - 1) := by
  have hdown : r.countdown t = d - 1 := by rw [countdown, if_pos ht, h.countDown]
  unfold rtcInterrupt raises
  by_cases h0 : r.countdown u = 0
  · simp only [if_pos h.enabled, h0, or_true, decide_true, and_true, ↓reduceIte]
    refine ⟨h.enabled, h.countNum, ?_⟩
    by_cases hut : u = t
    · subst hut
      rw [if_pos rfl]
      exact (Function.update_self _ _ _).trans h.countNum
    · rw [if_neg hut]
      exact (Function.update_of_ne (Ne.symm hut) _ _).trans hdown
  · have hraise : ¬ (r.rtcVEnable ≠ 1 ∨ r.countdown u = 0) := by
      rw [not_or]
      exact ⟨fun hne => hne h.enabled, h0⟩
    simp only [if_pos h.enabled, if_neg h0, hraise, decide_false, Bool.false_eq_true, and_false, ↓reduceIte]
    exact ⟨h.enabled, h.countNum, hdown⟩

/-- **The interrupts raised are the greedy choice** among the moments at which the terminal runs. -/
theorem raised_greedy (ht : t < 3) (hc : 0 < c) (h : CountsFrom r t c c) (running : ℕ → ℕ) (n : ℕ) :
    ∃ last, Greedy c (fun i => running (i - 1) = t) n (raised r running t n) last ∧
      CountsFrom (ticks r running n) t c (c - (n - last)) := by
  induction n with
  | zero => exact ⟨0, Greedy.start hc, h⟩
  | succ n ih =>
    obtain ⟨last, hg, hk⟩ := ih
    have hwithin := hg.within
    have hnext := rtcInterrupt_countsFrom ht hk (running n)
    have hexpired : running n = t → ((ticks r running n).raises (running n) ↔ last + c ≤ n + 1) := by
      intro hrun
      unfold raises countdown
      rw [hrun, if_pos ht, hk.countDown, hk.enabled, decide_eq_true_iff]
      omega
    by_cases hrun : running n = t ∧ (ticks r running n).raises (running n)
    · have hfar := (hexpired hrun.1).mp hrun.2
      refine ⟨n + 1, ?_, ?_⟩
      · rw [raised, if_pos hrun]
        exact hg.take hc hrun.1 hfar
      · rw [if_pos hrun] at hnext
        rw [Nat.sub_self, Nat.sub_zero]
        exact hnext
    · refine ⟨last, ?_, ?_⟩
      · rw [raised, if_neg hrun, Nat.add_zero]
        refine hg.skip fun hok => ?_
        by_contra hfar
        exact hrun ⟨hok, (hexpired hok).mpr (by omega)⟩
      · rw [if_neg hrun] at hnext
        rw [show c - (n + 1 - last) = c - (n - last) - 1 by omega]
        exact hnext

end Rate

/-- **When the rate is exact**: the schedule runs the terminal at moments that lie at least a period
apart, as many of them as there are periods. -/
theorem virtual_rate_exact (t f : ℕ) (ht : t < 3) (r : Rtc) (h : SetTo t f r) (running : ℕ → ℕ) (n : ℕ) :
    raised r running t n = n / (rtcVBaseF / f) ↔
      ∃ g : ℕ → ℕ, Spaced (rtcVBaseF / f) (fun i => running (i - 1) = t) (n / (rtcVBaseF / f)) g ∧
        g (n / (rtcVBaseF / f)) ≤ n := by
  obtain ⟨hc, hk⟩ := h.countsFrom
  obtain ⟨last, hg, -⟩ := raised_greedy ht hc hk running n
  exact hg.count_eq hc

def loaded : Rtc := ⟨0, 0, 0, fun _ => 0, fun _ => 0, fun _ => 2, fun _ => 0⟩

/-- A terminal that runs all the time. -/
theorem virtual_rate_exact_alone : raised (loaded.opened 0) (fun _ => 0) 0 1024 = 4 := by
  have hexact := virtual_rate_exact 0 2 (by decide) (loaded.opened 0) (Or.inl ⟨loaded, rfl, rfl⟩) (fun _ => 0) 1024
  exact hexact.mpr ⟨fun j => 256 * j, ⟨rfl, fun j _ => by decide +revert, fun _ _ => rfl⟩, by decide⟩

/-- Terminal 1 runs when the only interrupt of terminal 0's period comes. -/
theorem period_missed : ∃ r, SetTo 0 512 r ∧ raised r (fun _ => 1) 0 1 ≠ 1 / (rtcVBaseF / 512) :=
  ⟨{ loaded.opened 0 with rtcVEnable := 1 }.restart 0 512,
    Or.inr ⟨by decide, loaded.opened 0, 1, 4, rfl, rfl⟩, by decide⟩

/-! ## Sharing -/

/-- The stores a clock call makes; `rtc_read` makes one before its wait and one after it. -/
inductive ClockCall
  | opening
  | reading
  | read
  | writing (buf rate : ℕ) (nbytes : ℤ)
  | closing

/-- The clock after a call by a process of terminal `t`. -/
def call (r : Rtc) (t : ℕ) : ClockCall → Rtc
  | .opening => r.opened t
  | .reading => r.cleared t
  | .read => r.cleared t
  | .writing buf rate nbytes =>
    match r.rtcWrite t buf rate nbytes with
    | .ok (_, r) => r
    | .error r => r
  | .closing => r

/-- Two clocks that agree on what belongs to terminal `u`. -/
structure SameFor (r r' : Rtc) (u : ℕ) : Prop where
  frequency : r'.frequency u = r.frequency u
  countNum : r'.countNum u = r.countNum u
  countDown : r'.countDown u = r.countDown u
  interrupt : r'.interrupt u = r.interrupt u

/-- A call of terminal `t` leaves the clocks of the other terminals alone. -/
def KeepsOthers (r : Rtc) (t : ℕ) (c : ClockCall) : Prop := ∀ u < 3, u ≠ t → SameFor r (r.call t c) u

/-- The call does not open the clock while another terminal's interrupt is pending. -/
def NothingPending (r : Rtc) (t : ℕ) (c : ClockCall) : Prop :=
  c = .opening → ∀ u < 3, u ≠ t → r.interrupt u = 0

section Sharing
variable {r r' : Rtc} {t u : ℕ}

theorem SameFor.refl (r : Rtc) (u : ℕ) : SameFor r r u := ⟨rfl, rfl, rfl, rfl⟩

theorem restart_sameFor (r : Rtc) (f : ℕ) (hut : u ≠ t) : SameFor r (r.restart t f) u :=
  ⟨Function.update_of_ne hut _ _, Function.update_of_ne hut _ _, Function.update_of_ne hut _ _, rfl⟩

theorem cleared_sameFor (r : Rtc) (hut : u ≠ t) : SameFor r (r.cleared t) u :=
  ⟨rfl, rfl, rfl, Function.update_of_ne hut _ _⟩

theorem rtcWrite_sameFor (r : Rtc) (hut : u ≠ t) (buf rate : ℕ) (nbytes : ℤ) :
    SameFor r (r.call t (.writing buf rate nbytes)) u := by
  simp only [call, rtcWrite]
  by_cases hbuf : buf = 0 ∨ nbytes ≠ 4
  · rw [if_pos hbuf]
    exact SameFor.refl r u
  rw [if_neg hbuf]
  by_cases hhigh : rate > highFreq
  · rw [if_pos hhigh]
    exact SameFor.refl r u
  rw [if_neg hhigh]
  by_cases hbase : rate > rtcVBaseF
  · rw [if_pos hbase]
    exact SameFor.refl r u
  rw [if_neg hbase]
  by_cases h0 : rate = 0
  · rw [if_pos h0]
    exact ⟨Function.update_of_ne hut _ _, rfl, rfl, rfl⟩
  · rw [if_neg h0]
    have hsame := restart_sameFor { r with rtcVEnable := 1 } rate hut
    exact ⟨hsame.frequency, hsame.countNum, hsame.countDown, hsame.interrupt⟩

theorem opened_sameFor (r : Rtc) (hu : u < 3) (hut : u ≠ t) : SameFor r (r.opened t) u ↔ r.interrupt u = 0 := by
  have hflag : (r.opened t).interrupt u = 0 := if_pos hu
  have hsame := restart_sameFor { r.init with vRate := rtcVRate, baseF := rtcVBaseF } 2 hut
  constructor
  · intro h
    rw [← h.interrupt, hflag]
  · intro h
    exact ⟨hsame.frequency, hsame.countNum, hsame.countDown, by rw [hflag, h]⟩

theorem keepsOthers_iff (r : Rtc) (t : ℕ) (c : ClockCall) : KeepsOthers r t c ↔ NothingPending r t c := by
  unfold KeepsOthers NothingPending
  cases c with
  | opening =>
    constructor
    · exact fun h _ u hu hut => (opened_sameFor r hu hut).mp (h u hu hut)
    · exact fun h u hu hut => (opened_sameFor r hu hut).mpr (h rfl u hu hut)
  | reading => exact iff_of_true (fun u _ hut => cleared_sameFor r hut) (fun h => by cases h)
  | read => exact iff_of_true (fun u _ hut => cleared_sameFor r hut) (fun h => by cases h)
  | writing buf rate nbytes =>
    exact iff_of_true (fun u _ hut => rtcWrite_sameFor r hut buf rate nbytes) (fun h => by cases h)
  | closing => exact iff_of_true (fun u _ _ => SameFor.refl r u) (fun h => by cases h)

/-! A reader of terminal `u` has cleared its flag and waits. -/

inductive ClockEvent
  /-- A hardware interrupt that finds a process of the terminal. -/
  | hardware (running : ℕ)
  /-- A clock call by a process of the terminal. -/
  | called (t : ℕ) (c : ClockCall)

/-- The clock, and whether a virtual interrupt has been raised for the reader since it waits. -/
structure Blocked where
  clock : Rtc
  raised : Bool

/-- What happens while the reader of `u` waits: no call of its own terminal does. -/
def blockedStep (u : ℕ) (s : Blocked) : ClockEvent → Option Blocked
  | .hardware running =>
    some ⟨s.clock.rtcInterrupt running, s.raised || (decide (running = u) && s.clock.raises running)⟩
  | .called t c => if t = u then none else some ⟨s.clock.call t c, s.raised⟩

/-- No terminal opens the clock while another's interrupt is pending. -/
def opensQuietly (s : Blocked) : ClockEvent → Prop
  | .hardware _ => True
  | .called t c => NothingPending s.clock t c

/-- The reader's flag says whether its interrupt has come. -/
def FlagTells (u : ℕ) (s : Blocked) : Prop := s.clock.interrupt u = if s.raised then 1 else 0

theorem blockedStep_flagTells (hu : u < 3) {s s' : Blocked} {ev : ClockEvent} (h : FlagTells u s)
    (hok : opensQuietly s ev) (hs : blockedStep u s ev = some s') : FlagTells u s' := by
  unfold FlagTells at h ⊢
  cases ev with
  | hardware running =>
    cases hs
    rw [rtcInterrupt_interrupt]
    by_cases hr : s.clock.raises running
    · rw [if_pos hr]
      by_cases hru : running = u
      · rw [hru, Function.update_self, if_pos]
        rw [hru] at hr
        rw [hr, decide_eq_true rfl, Bool.and_self, Bool.or_true]
      · rw [Function.update_of_ne (Ne.symm hru), h, decide_eq_false hru, Bool.false_and, Bool.or_false]
    · rw [if_neg hr, h, Bool.not_eq_true _ |>.mp hr, Bool.and_false, Bool.or_false]
  | called t c =>
    simp only [blockedStep] at hs
    split at hs
    · cases hs
    · next htu =>
      cases hs
      rw [((keepsOthers_iff s.clock t c).mpr hok u hu (Ne.symm htu)).interrupt]
      exact h

end Sharing

/-- **When the terminals' clocks do not interfere**: call by call exactly when no clock is opened while
another terminal's interrupt is pending, and in every run of such calls a waiting reader sees its
interrupt. -/
theorem clocks_do_not_interfere (r : Rtc) :
    (∀ (t : ℕ) (c : ClockCall), KeepsOthers r t c ↔ NothingPending r t c) ∧
      ∀ (u : ℕ) (s : Blocked), u < 3 → Reaches (blockedStep u) opensQuietly ⟨r.cleared u, false⟩ s →
        s.raised = true → s.clock.interrupt u = 1 := by
  refine ⟨keepsOthers_iff r, fun u s hu hrun hraised => ?_⟩
  have hstart : FlagTells u ⟨r.cleared u, false⟩ := Function.update_self u 0 r.interrupt
  have htells := hrun.invariant hstart fun _ _ _ h hok hs => blockedStep_flagTells hu h hok hs
  unfold FlagTells at htells
  rw [htells, if_pos hraised]

/-- The first interrupt of a waiting reader. -/
theorem clocks_do_not_interfere_first : ∃ s, Reaches (blockedStep 1) opensQuietly
    ⟨({ loaded.opened 1 with rtcVEnable := 1 }.restart 1 512).cleared 1, false⟩ s ∧ s.clock.interrupt 1 = 1 := by
  have hrun : Reaches (blockedStep 1) opensQuietly
      ⟨({ loaded.opened 1 with rtcVEnable := 1 }.restart 1 512).cleared 1, false⟩ _ :=
    @Reaches.single _ _ (blockedStep 1) opensQuietly _ _ (.hardware 1) trivial rfl
  exact ⟨_, hrun, (clocks_do_not_interfere _).2 1 _ (by decide) hrun rfl⟩

/-- Terminal 0 opens the clock between terminal 1's interrupt and its reader's next look. -/
theorem open_loses_interrupt : ∃ r : Rtc, ¬ KeepsOthers r 0 .opening :=
  ⟨{ loaded with interrupt := fun _ => 1 }, fun h => absurd (h 1 (by decide) (by decide)).interrupt (by decide)⟩

/-! ## Setting the frequency -/

def clockStep (r : Rtc) : ClockEvent → Option Rtc
  | .hardware running => some (r.rtcInterrupt running)
  | .called t c => some (r.call t c)

def HasOpened (r : Rtc) : Prop := ∃ (r₀ : Rtc) (t : ℕ), Reaches clockStep anyStep (r₀.opened t) r

/-- Terminal `t` counts down from an exact part of the base frequency, and nothing else has changed. -/
structure FrequencySet (r r' : Rtc) (t f : ℕ) : Prop where
  frequency : r'.frequency = Function.update r.frequency t f
  countNum : r'.countNum = Function.update r.countNum t (r.baseF / f)
  countDown : r'.countDown = Function.update r.countDown t (r.baseF / f)
  exactly : r'.countNum t * f = r.baseF
  others : r' = { r with frequency := r'.frequency, countNum := r'.countNum, countDown := r'.countDown }

/-- `rtc_write` takes the frequencies the virtual clock has and rejects all others. -/
def Validates (r : Rtc) (t buf f : ℕ) : Prop :=
  if f.isPowerOfTwo ∧ lowFreq ≤ f ∧ f ≤ rtcVBaseF then ∃ r', r.rtcWrite t buf f 4 = .ok (0, r') ∧ FrequencySet r r' t f
  else r.rtcWrite t buf f 4 = .ok (-1, r)

section Frequency
variable {r r' : Rtc} {t buf f : ℕ}

structure Operating (r : Rtc) : Prop where
  enabled : r.rtcVEnable = 1
  base : r.baseF = rtcVBaseF

theorem clockStep_operating {ev : ClockEvent} (h : Operating r) (hs : clockStep r ev = some r') : Operating r' := by
  cases ev with
  | hardware running =>
    cases hs
    unfold rtcInterrupt
    rw [if_pos h.enabled]
    simp only
    split
    · exact ⟨h.enabled, h.base⟩
    · exact ⟨h.enabled, h.base⟩
  | called t c =>
    cases hs
    cases c with
    | opening => exact ⟨rfl, rfl⟩
    | reading => exact ⟨h.enabled, h.base⟩
    | read => exact ⟨h.enabled, h.base⟩
    | closing => exact h
    | writing buf rate nbytes =>
      simp only [call, rtcWrite]
      split_ifs
      · exact h
      · exact h
      · exact h
      · exact ⟨rfl, h.base⟩
      · exact ⟨rfl, h.base⟩

theorem HasOpened.operating (h : HasOpened r) : Operating r := by
  obtain ⟨r₀, t, hrun⟩ := h
  exact hrun.invariant ⟨rfl, rfl⟩ fun _ _ _ hop _ hs => clockStep_operating hop hs

theorem rtcWrite_eq (h : Operating r) (hbuf : buf ≠ 0) : r.rtcWrite t buf f 4 =
    if rtcVBaseF < f then .ok (-1, r)
    else if f = 0 then .error { r with frequency := Function.update r.frequency t f } else .ok (0, r.restart t f) := by
  have hsame : ({ r with rtcVEnable := 1 } : Rtc) = r := by rw [← h.enabled]
  unfold rtcWrite
  rw [if_neg (fun hx => hx.elim hbuf fun h4 => h4 rfl)]
  by_cases hbase : rtcVBaseF < f
  · rw [if_pos hbase, if_pos hbase, ite_self]
  · have hhigh : ¬ f > highFreq := by
      simp only [rtcVBaseF, highFreq] at hbase ⊢
      omega
    rw [if_neg hbase, if_neg hhigh, if_neg hbase, hsame]

theorem base_divides (hpow : f.isPowerOfTwo) (hle : f ≤ rtcVBaseF) : rtcVBaseF / f * f = rtcVBaseF := by
  obtain ⟨e, rfl⟩ := hpow
  have hbase : rtcVBaseF = 2 ^ 9 := rfl
  rw [hbase] at hle ⊢
  have he := (Nat.pow_le_pow_iff_right (by decide)).mp hle
  exact Nat.div_mul_cancel (Nat.pow_dvd_pow 2 he)

end Frequency

/-- **`rtc_write`** meets its description on the powers of two from 2 on, and on what it finds too large. -/
theorem rtc_write_validates (r : Rtc) (h : HasOpened r) (t buf f : ℕ) (hbuf : buf ≠ 0) :
    Validates r t buf f ↔ rtcVBaseF < f ∨ f.isPowerOfTwo ∧ lowFreq ≤ f := by
  have hop := h.operating
  unfold Validates
  rw [rtcWrite_eq hop hbuf]
  by_cases hlarge : rtcVBaseF < f
  · rw [if_pos hlarge, if_neg fun hx => Nat.not_le.mpr hlarge hx.2.2]
    exact iff_of_true rfl (Or.inl hlarge)
  rw [if_neg hlarge]
  by_cases hpow : f.isPowerOfTwo ∧ lowFreq ≤ f
  · have hle := Nat.not_lt.mp hlarge
    have h0 := Nat.pos_of_isPowerOfTwo hpow.1
    rw [if_pos ⟨hpow.1, hpow.2, hle⟩, if_neg (Nat.ne_of_gt h0)]
    refine iff_of_true ⟨_, rfl, rfl, rfl, rfl, ?_, rfl⟩ (Or.inr hpow)
    show Function.update r.countNum t (r.baseF / f) t * f = r.baseF
    rw [Function.update_self, hop.base]
    exact base_divides hpow.1 hle
  · rw [if_neg fun hx => hpow ⟨hx.1, hx.2.1⟩]
    refine iff_of_false ?_ fun hx => hx.elim hlarge hpow
    split
    · exact fun hx => by cases hx
    · intro hx
      simp only [Except.ok.injEq, Prod.mk.injEq] at hx
      exact absurd hx.1 (by decide)

theorem rtc_write_validates_64 : HasOpened (loaded.opened 0) ∧
    (Validates (loaded.opened 0) 0 1 64 ↔ rtcVBaseF < 64 ∨ Nat.isPowerOfTwo 64 ∧ lowFreq ≤ 64) :=
  ⟨⟨loaded, 0, .refl _⟩, rtc_write_validates (loaded.opened 0) ⟨loaded, 0, .refl _⟩ 0 1 64 (by decide)⟩

/-- Frequency 0 divides by zero, and 3 is accepted although 170 periods of it are no second. -/
theorem rtc_write_not_validated : ¬ Validates (loaded.opened 0) 0 1 0 ∧ ¬ Validates (loaded.opened 0) 0 1 3 ∧
    ∃ r, (loaded.opened 0).rtcWrite 0 1 0 4 = .error r := by
  have hzero : ∃ r, (loaded.opened 0).rtcWrite 0 1 0 4 = .error r := ⟨_, rfl⟩
  refine ⟨?_, ?_, hzero⟩
  · unfold Validates
    rw [if_neg (by decide)]
    obtain ⟨r, hr⟩ := hzero
    rw [hr]
    exact fun hx => by cases hx
  · unfold Validates
    rw [if_neg (by decide)]
    intro hx
    have hret : (loaded.opened 0).rtcWrite 0 1 3 4 = .ok (0, (loaded.opened 0).restart 0 3) := rfl
    rw [hret] at hx
    simp only [Except.ok.injEq, Prod.mk.injEq] at hx
    exact absurd hx.1 (by decide)

end Rtc
end Kernel391
