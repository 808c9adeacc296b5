import Kernel391.System.LineFrame

/-! Typing and reading, interleaved. A reader of a terminal goes through the stages of
`terminal_read` while keys and everything else happen in between; the lines entered
and the bytes delivered are recorded beside the kernel. -/
namespace Kernel391
open Kernel391.Foundations
set_option autoImplicit false

inductive Reader
  | idle
  | waiting (nbytes : ℕ)
  | passed (nbytes : ℕ)
  | copied
  deriving DecidableEq

/-- The kernel, the readers, and for every terminal the line being typed, the lines entered and the
bytes delivered to its readers. -/
structure Lines where
  kernel : Kernel
  reader : ℕ → Reader
  typing : ℕ → List UInt8
  entered : ℕ → List UInt8
  delivered : ℕ → List UInt8

inductive LineEvent
  /-- An event of the kernel; `terminal_read` is not among its work. -/
  | event (ev : Event)
  /-- A process of the terminal calls `terminal_read`. -/
  | call (t nbytes : ℕ)
  /-- The wait ends. -/
  | pass (t : ℕ)
  /-- The copy, under `cli`. -/
  | copy (t : ℕ)
  /-- The line is released, after `sti`. -/
  | release (t : ℕ)

namespace Lines
variable (s : Lines)

def keyboard (t : ℕ) : KeyboardStruct := s.kernel.keyboard t

def withKernel (k : Kernel) : Lines := { s with kernel := k }

def setReader (t : ℕ) (r : Reader) : Lines := { s with reader := Function.update s.reader t r }

def key (t : ℕ) (c : UInt8) : Lines :=
  if c = 0x0A then
    { s with
      typing := Function.update s.typing t []
      entered := Function.update s.entered t (s.entered t ++ s.typing t ++ [c]) }
  else { s with typing := Function.update s.typing t (editLine (s.typing t) c) }

/-- What is typed while the terminal is not locked goes to its line. -/
def keyed (scanCode : ℕ) : Lines :=
  match s.kernel.keyed scanCode with
  | some (t, c) => if (s.keyboard t).enterLock = 0 then s.key t c else s
  | none => s

end Lines

/-- The event as it happens in a state: work keeps the line buffers. -/
def Event.keeping (keyboard : ℕ → KeyboardStruct) : Event → Event
  | .work w => .work { w with keyboard := keyboard }
  | ev => ev

def lineStep (img : Image) (fs : Filesystem) (s : Lines) : LineEvent → Option Lines
  | .event ev =>
    (step img fs s.kernel (ev.keeping s.kernel.keyboard)).map fun k =>
      match ev with
      | .key _ scanCode => (s.keyed scanCode).withKernel k
      | _ => s.withKernel k
  | .call t nbytes =>
    if s.reader t = .idle ∧ 0 < nbytes ∧ nbytes < 2 ^ 31 then some (s.setReader t (.waiting nbytes)) else none
  | .pass t =>
    match s.reader t with
    | .waiting nbytes => if (s.keyboard t).ready then some (s.setReader t (.passed nbytes)) else none
    | _ => none
  | .copy t =>
    match s.reader t with
    | .passed nbytes =>
      some { s.setReader t .copied with
        kernel := s.kernel.setKeyboard t fun kb => kb.lower nbytes
        delivered := Function.update s.delivered t
          (s.delivered t ++ ((s.keyboard t).copied nbytes).take ((s.keyboard t).count nbytes)) }
    | _ => none
  | .release t =>
    match s.reader t with
    | .copied => some { s.setReader t .idle with kernel := s.kernel.setKeyboard t KeyboardStruct.release }
    | _ => none

def wholeLines (s : Lines) : LineEvent → Prop
  | .copy t => ∀ nbytes, s.reader t = .passed nbytes → (s.keyboard t).top ≤ nbytes
  | _ => True

/-! ## The invariant -/

/-- A terminal is open for typing, holds a line that waits for its reader, or has just been emptied. -/
inductive LineState (s : Lines) (t : ℕ) : Prop
  | typing (lock : (s.keyboard t).enterLock = 0) (top : (s.keyboard t).top ≤ 127)
      (contents : (s.keyboard t).contents = s.typing t) (noNewline : 0x0A ∉ s.typing t)
      (delivered : s.delivered t = s.entered t) (reader : s.reader t = .idle ∨ ∃ n, s.reader t = .waiting n)
  | pending (lock : (s.keyboard t).enterLock = 1) (empty : s.typing t = [])
      (delivered : s.entered t = s.delivered t ++ (s.keyboard t).contents) (reader : s.reader t ≠ .copied)
  | taken (lock : (s.keyboard t).enterLock = 1) (empty : s.typing t = []) (top : (s.keyboard t).top = 0)
      (delivered : s.delivered t = s.entered t) (reader : s.reader t = .copied)

section Step
variable {img : Image} {fs : Filesystem} {s s' : Lines} {t u : ℕ}

theorem LineState.congr (h : LineState s t) (hkb : s'.keyboard t = s.keyboard t)
    (hr : s'.reader t = s.reader t) (ht : s'.typing t = s.typing t) (he : s'.entered t = s.entered t)
    (hd : s'.delivered t = s.delivered t) : LineState s' t := by
  cases h with
  | typing h₁ h₂ h₃ h₄ h₅ h₆ =>
    exact .typing (hkb ▸ h₁) (hkb ▸ h₂) (by rw [hkb, ht, h₃]) (ht ▸ h₄) (by rw [hd, he, h₅]) (hr ▸ h₆)
  | pending h₁ h₂ h₃ h₄ => exact .pending (hkb ▸ h₁) (ht ▸ h₂) (by rw [he, hd, hkb, h₃]) (hr ▸ h₄)
  | taken h₁ h₂ h₃ h₄ h₅ => exact .taken (hkb ▸ h₁) (ht ▸ h₂) (hkb ▸ h₃) (by rw [hd, he, h₄]) (hr ▸ h₅)

theorem lineState_key (h : LineState s t) {c : UInt8} {k : Kernel}
    (hk : k.keyboard = Function.update s.kernel.keyboard u ((s.keyboard u).typed c)) :
    LineState ((if (s.keyboard u).enterLock = 0 then s.key u c else s).withKernel k) t := by
  by_cases htu : t = u
  · subst htu
    have hkb : k.keyboard t = (s.keyboard t).typed c := by rw [hk, Function.update_self]
    cases h with
    | typing lock top contents noNewline delivered reader =>
      rw [if_pos lock]
      unfold Lines.key
      by_cases hc : c = 0x0A
      · subst hc
        obtain ⟨h₁, h₂⟩ := typed_newline lock top
        rw [if_pos rfl]
        refine .pending ?_ (Function.update_self _ _ _) ?_ ?_
        · exact (congrArg KeyboardStruct.enterLock hkb).trans h₂
        · show Function.update s.entered t _ t = s.delivered t ++ (k.keyboard t).contents
          rw [Function.update_self, hkb, h₁, contents, delivered, List.append_assoc]
        · rcases reader with hr | ⟨n, hr⟩ <;> exact fun hx => by cases hr.symm.trans hx
      · obtain ⟨h₁, h₂⟩ := typed_edit lock top hc
        have hline : Function.update s.typing t (editLine (s.typing t) c) t = editLine (s.typing t) c :=
          Function.update_self _ _ _
        rw [if_neg hc]
        refine .typing ?_ ?_ ?_ ?_ delivered reader
        · exact (congrArg KeyboardStruct.enterLock hkb).trans h₂
        · show (k.keyboard t).top ≤ 127
          rw [hkb, ← KeyboardStruct.contents_length, h₁]
          exact editLine_length _ (by rw [KeyboardStruct.contents_length]; exact top) c
        · show (k.keyboard t).contents = Function.update s.typing t (editLine (s.typing t) c) t
          rw [hline, hkb, h₁, contents]
        · show 0x0A ∉ Function.update s.typing t (editLine (s.typing t) c) t
          rw [hline]
          exact editLine_noNewline noNewline hc
    | pending lock empty delivered reader =>
      have hsame : k.keyboard t = s.keyboard t := by
        rw [hkb]
        by_cases hc : c = 0x0A
        · rw [hc, typed_locked_newline lock]
        · exact typed_locked (by omega) hc
      rw [if_neg (by omega)]
      exact LineState.congr (.pending lock empty delivered reader) hsame rfl rfl rfl rfl
    | taken lock empty top delivered reader =>
      have hsame : k.keyboard t = s.keyboard t := by
        rw [hkb]
        by_cases hc : c = 0x0A
        · rw [hc, typed_locked_newline lock]
        · exact typed_locked (by omega) hc
      rw [if_neg (by omega)]
      exact LineState.congr (.taken lock empty top delivered reader) hsame rfl rfl rfl rfl
  · have hkb : k.keyboard t = s.keyboard t := by rw [hk, Function.update_of_ne htu]; rfl
    refine h.congr hkb ?_ ?_ ?_ ?_
    all_goals
      unfold Lines.key Lines.withKernel
      split
      · split
        · first
            | exact Function.update_of_ne htu _ _
            | rfl
        · first
            | exact Function.update_of_ne htu _ _
            | rfl
      · rfl

theorem setKeyboard_ne (k : Kernel) (f : KeyboardStruct → KeyboardStruct) (h : t ≠ u) :
    (k.setKeyboard u f).keyboard t = k.keyboard t := Function.update_of_ne h _ _

theorem setKeyboard_self (k : Kernel) (f : KeyboardStruct → KeyboardStruct) :
    (k.setKeyboard t f).keyboard t = f (k.keyboard t) := Function.update_self _ _ _

/-- **One step keeps every terminal in one of the three states.** -/
theorem lineStep_state {ev : LineEvent} (h : LineState s t) (hok : wholeLines s ev)
    (hstep : lineStep img fs s ev = some s') : LineState s' t := by
  cases ev with
  | event ev =>
    obtain ⟨k, hk, rfl⟩ := Option.map_eq_some_iff.mp hstep
    have hkb := step_keyboard hk
    cases ev with
    | key e scanCode =>
      simp only [Event.keeping, Kernel.typedInto] at hkb
      simp only [Lines.keyed]
      cases hkey : s.kernel.keyed scanCode with
      | none =>
        rw [hkey] at hkb
        exact h.congr (congrFun hkb t) rfl rfl rfl rfl
      | some q =>
        obtain ⟨u, c⟩ := q
        rw [hkey] at hkb
        exact lineState_key h hkb
    | _ => exact h.congr (congrFun hkb t) rfl rfl rfl rfl
  | call u nbytes =>
    simp only [lineStep] at hstep
    split at hstep
    · next hc =>
      cases hstep
      by_cases htu : t = u
      · subst htu
        have hr : (s.setReader t (.waiting nbytes)).reader t = .waiting nbytes := Function.update_self _ _ _
        cases h with
        | typing h₁ h₂ h₃ h₄ h₅ h₆ => exact .typing h₁ h₂ h₃ h₄ h₅ (Or.inr ⟨nbytes, hr⟩)
        | pending h₁ h₂ h₃ h₄ =>
          refine .pending h₁ h₂ h₃ ?_
          rw [hr]
          exact fun hx => by cases hx
        | taken h₁ h₂ h₃ h₄ h₅ => cases h₅.symm.trans hc.1
      · exact h.congr rfl (Function.update_of_ne htu _ _) rfl rfl rfl
    · cases hstep
  | pass u =>
    simp only [lineStep] at hstep
    split at hstep
    · next nbytes hw =>
      split at hstep
      · next hready =>
        cases hstep
        by_cases htu : t = u
        · subst htu
          have hr : (s.setReader t (.passed nbytes)).reader t = .passed nbytes := Function.update_self _ _ _
          cases h with
          | typing h₁ h₂ h₃ h₄ h₅ h₆ =>
            have hlast := ((s.keyboard t).ready_iff).mp hready
            rw [h₃] at hlast
            exact absurd (List.mem_of_getLast? hlast) h₄
          | pending h₁ h₂ h₃ h₄ =>
            refine .pending h₁ h₂ h₃ ?_
            rw [hr]
            exact fun hx => by cases hx
          | taken h₁ h₂ h₃ h₄ h₅ => cases h₅.symm.trans hw
        · exact h.congr rfl (Function.update_of_ne htu _ _) rfl rfl rfl
      · cases hstep
    · cases hstep
  | copy u =>
    simp only [lineStep] at hstep
    split at hstep
    · next nbytes hp =>
      cases hstep
      by_cases htu : t = u
      · subst htu
        have hle := hok nbytes hp
        cases h with
        | typing h₁ h₂ h₃ h₄ h₅ h₆ =>
          rcases h₆ with hr | ⟨n, hr⟩ <;> cases hr.symm.trans hp
        | pending h₁ h₂ h₃ h₄ =>
          have hkb : (s.kernel.setKeyboard t fun kb => kb.lower nbytes).keyboard t = (s.keyboard t).lower nbytes :=
            setKeyboard_self _ _
          refine .taken ?_ h₂ ?_ ?_ (Function.update_self _ _ _)
          · exact (congrArg KeyboardStruct.enterLock hkb).trans h₁
          · exact (congrArg KeyboardStruct.top hkb).trans ((s.keyboard t).lower_all hle)
          · refine (Function.update_self _ _ _).trans ?_
            rw [(s.keyboard t).copied_all hle]
            exact h₃.symm
        | taken h₁ h₂ h₃ h₄ h₅ => cases h₅.symm.trans hp
      · have hkb := setKeyboard_ne s.kernel (fun kb => kb.lower nbytes) htu
        exact h.congr hkb (Function.update_of_ne htu _ _) rfl rfl (Function.update_of_ne htu _ _)
    · cases hstep
  | release u =>
    simp only [lineStep] at hstep
    split at hstep
    · next hc =>
      cases hstep
      by_cases htu : t = u
      · subst htu
        cases h with
        | typing h₁ h₂ h₃ h₄ h₅ h₆ =>
          rcases h₆ with hr | ⟨n, hr⟩ <;> cases hr.symm.trans hc
        | pending h₁ h₂ h₃ h₄ => exact absurd hc h₄
        | taken h₁ h₂ h₃ h₄ h₅ =>
          have htop : ((s.kernel.setKeyboard t KeyboardStruct.release).keyboard t).top = 0 :=
            (congrArg KeyboardStruct.top (setKeyboard_self s.kernel KeyboardStruct.release)).trans h₃
          have hnil : ((s.kernel.setKeyboard t KeyboardStruct.release).keyboard t).contents = [] :=
            List.length_eq_zero_iff.mp (by rw [KeyboardStruct.contents_length, htop])
          refine .typing ?_ ?_ ?_ ?_ h₄ (Or.inl (Function.update_self _ _ _))
          · exact congrArg KeyboardStruct.enterLock (setKeyboard_self s.kernel KeyboardStruct.release)
          · show ((s.kernel.setKeyboard t KeyboardStruct.release).keyboard t).top ≤ 127
            omega
          · exact hnil.trans h₂.symm
          · show 0x0A ∉ s.typing t
            rw [h₂]
            exact List.not_mem_nil
      · have hkb := setKeyboard_ne s.kernel KeyboardStruct.release htu
        exact h.congr hkb (Function.update_of_ne htu _ _) rfl rfl rfl
    · cases hstep

end Step

def Lines.fresh (k : Kernel) : Lines := ⟨k, fun _ => .idle, fun _ => [], fun _ => [], fun _ => []⟩

/-- **Lines are delivered exactly once** in every run whose readers all ask for at least the line they
find. -/
theorem lines_delivered_once (img : Image) (fs : Filesystem) (k : Kernel)
    (hk : ∀ t, (k.keyboard t).top = 0 ∧ (k.keyboard t).enterLock = 0) (s : Lines)
    (h : Reaches (lineStep img fs) wholeLines (Lines.fresh k) s) (t : ℕ) : s.delivered t <+: s.entered t := by
  have hstart : LineState (Lines.fresh k) t := by
    refine .typing (hk t).2 (by rw [show ((Lines.fresh k).keyboard t).top = 0 from (hk t).1]; omega) ?_
      List.not_mem_nil rfl (Or.inl rfl)
    exact List.length_eq_zero_iff.mp (by rw [KeyboardStruct.contents_length]; exact (hk t).1)
  have hrun := h.invariant hstart fun _ _ _ hs hok hstep => lineStep_state hs hok hstep
  cases hrun with
  | typing _ _ _ _ delivered _ => exact delivered ▸ List.prefix_rfl
  | pending _ _ delivered _ => exact delivered ▸ List.prefix_append _ _
  | taken _ _ _ delivered _ => exact delivered ▸ List.prefix_rfl

def wholeLinesTest (s : Lines) : LineEvent → Bool
  | .copy t =>
    match s.reader t with
    | .passed nbytes => (s.keyboard t).top ≤ nbytes
    | _ => true
  | _ => true

theorem wholeLines_of_test (s : Lines) (ev : LineEvent) (h : wholeLinesTest s ev = true) : wholeLines s ev := by
  cases ev with
  | copy t =>
    intro nbytes hr
    simp only [wholeLinesTest, hr] at h
    exact of_decide_eq_true h
  | _ => exact trivial

def LineEvent.pressed (scanCode : ℕ) : LineEvent := .event (.key (Entry.below eightMb 64) scanCode)

/-- The line `ab` is entered and read in one call. -/
theorem lines_delivered_once_whole : ∃ s,
    Reaches (lineStep Image.small (Image.WellFormed.pointers Image.small)) wholeLines (Lines.fresh firstShell) s ∧
      s.entered 0 = [0x61, 0x62, 0x0A] ∧ s.delivered 0 <+: s.entered 0 := by
  let events : List LineEvent :=
    [.pressed 0x1E, .pressed 0x30, .pressed 0x1C, .call 0 128, .pass 0, .copy 0, .release 0]
  have hobs : (runEvents (guarded (lineStep Image.small (Image.WellFormed.pointers Image.small)) wholeLinesTest)
      (Lines.fresh firstShell) events).map (fun s => s.entered 0) = some [0x61, 0x62, 0x0A] := by decide +kernel
  obtain ⟨s, hs, hentered⟩ := Option.map_eq_some_iff.mp hobs
  have hrun := reaches_of_guarded wholeLines_of_test (reaches_of_runEvents hs)
  exact ⟨s, hrun, hentered, lines_delivered_once _ _ firstShell (fun _ => ⟨rfl, rfl⟩) s hrun 0⟩

/-- The line `ab` is read one byte at a time: after the first byte the kernel forgets the last one and
starts over, so Enter delivers `ab` again. -/
theorem short_reads_repeat : ∃ k s, (∀ t, (k.keyboard t).top = 0 ∧ (k.keyboard t).enterLock = 0) ∧
    Reaches (lineStep Image.small (Image.WellFormed.pointers Image.small)) anyStep (Lines.fresh k) s ∧
      ¬ s.delivered 0 <+: s.entered 0 := by
  let events : List LineEvent := [.pressed 0x1E, .pressed 0x30, .pressed 0x1C, .call 0 1, .pass 0, .copy 0, .release 0,
    .pressed 0x9C, .pressed 0x1C, .call 0 128, .pass 0, .copy 0]
  have hobs : (runEvents (lineStep Image.small (Image.WellFormed.pointers Image.small)) (Lines.fresh firstShell)
      events).map (fun s => (s.delivered 0, s.entered 0)) =
        some ([0x61, 0x61, 0x62, 0x0A], [0x61, 0x62, 0x0A, 0x0A]) := by decide +kernel
  obtain ⟨s, hs, hse⟩ := Option.map_eq_some_iff.mp hobs
  rw [Prod.mk.injEq] at hse
  refine ⟨firstShell, s, fun _ => ⟨rfl, rfl⟩, reaches_of_runEvents hs, ?_⟩
  rw [hse.1, hse.2]
  decide

end Kernel391
