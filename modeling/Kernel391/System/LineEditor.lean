import Kernel391.System.LineInput

/-! The keyboard buffer as a line editor: a run in which one terminal stays on screen,
beside a reference that edits a list of characters. -/
namespace Kernel391
open Kernel391.Foundations
set_option autoImplicit false

/-- The characters of the line, and whether Enter has ended it. -/
structure LineEditor where
  line : List UInt8
  ended : Bool

/-- Enter always fits and ends the line; what comes after it is ignored. -/
def LineEditor.key (ed : LineEditor) (c : UInt8) : LineEditor :=
  if ed.ended then ed
  else if c = 0x0A then ⟨ed.line ++ [c], true⟩
  else ⟨editLine ed.line c, false⟩

structure Edited where
  kernel : Kernel
  editor : LineEditor

/-- An event of the kernel other than a read; the reference takes the character of a code that is handled. -/
def editStep (img : Image) (fs : Filesystem) (s : Edited) (ev : Event) : Option Edited :=
  (step img fs s.kernel (ev.keeping s.kernel.keyboard)).map fun k =>
    match ev with
    | .key _ scanCode => ⟨k, ((s.kernel.keyed scanCode).map fun q => s.editor.key q.2).getD s.editor⟩
    | _ => ⟨k, s.editor⟩

/-- The terminal is on screen when the event comes. -/
def staysOnScreen (t : ℕ) (s : Edited) (_ : Event) : Prop := s.kernel.findOnscreenTerminalNum = some t

instance (t : ℕ) (s : Edited) (ev : Event) : Decidable (staysOnScreen t s ev) := inferInstanceAs (Decidable (_ = _))

/-- The buffer of terminal `t` is the reference's line, and nothing outside it has been written. -/
structure EditsLine (k₀ : Kernel) (t : ℕ) (s : Edited) : Prop where
  contents : (s.kernel.keyboard t).contents = s.editor.line
  lock : (s.kernel.keyboard t).enterLock = if s.editor.ended then 1 else 0
  top_le : (s.kernel.keyboard t).top ≤ 128
  room : s.editor.ended = false → (s.kernel.keyboard t).top < 128
  inside : ∀ i ≥ 128, (s.kernel.keyboard t).buffer i = (k₀.keyboard t).buffer i
  others : ∀ u ≠ t, s.kernel.keyboard u = k₀.keyboard u

section Typed
variable {kb : KeyboardStruct} {c : UInt8} {i : ℕ}

theorem push_inside (h : kb.top < 128) (hi : 128 ≤ i) : (kb.push c).buffer i = kb.buffer i :=
  Function.update_of_ne (by omega) _ _

theorem typed_inside (hi : 128 ≤ i) : (kb.typed c).buffer i = kb.buffer i := by
  have hkey : ∀ kb' : KeyboardStruct, kb'.buffer i = kb.buffer i →
      (if c = 0x0A then { kb' with enterLock := 1 } else kb' : KeyboardStruct).buffer i = kb.buffer i := by
    intro kb' h
    split
    · exact h
    · exact h
  unfold KeyboardStruct.typed
  apply hkey
  split
  · split
    · rfl
    · split
      · rfl
      · split
        · next ht =>
          have htop := ht.2
          have h₁ : (kb.push 0x20).top = kb.top + 1 := kb.push_top 0x20
          have h₂ : ((kb.push 0x20).push 0x20).top = kb.top + 2 := by rw [KeyboardStruct.push_top, h₁]
          have h₃ : (((kb.push 0x20).push 0x20).push 0x20).top = kb.top + 3 := by rw [KeyboardStruct.push_top, h₂]
          rw [push_inside (by omega) hi, push_inside (by omega) hi, push_inside (by omega) hi,
            push_inside (by omega) hi]
        · split
          · next hc =>
            split
            · split
              · exact push_inside hc.2.1 hi
              · rfl
            · exact push_inside hc.2.1 hi
          · rfl
  · rfl

end Typed

section Step
variable {img : Image} {fs : Filesystem} {k₀ : Kernel} {t : ℕ} {s s' : Edited}

theorem editsLine_key (h : EditsLine k₀ t s) {k : Kernel} {c : UInt8}
    (hk : k.keyboard = Function.update s.kernel.keyboard t ((s.kernel.keyboard t).typed c)) :
    EditsLine k₀ t ⟨k, s.editor.key c⟩ := by
  have hkb : k.keyboard t = (s.kernel.keyboard t).typed c := by rw [hk, Function.update_self]
  have hinside : ∀ i ≥ 128, (k.keyboard t).buffer i = (k₀.keyboard t).buffer i := fun i hi => by
    rw [hkb, typed_inside hi]
    exact h.inside i hi
  have hothers : ∀ u ≠ t, k.keyboard u = k₀.keyboard u := fun u hu => by
    rw [hk, Function.update_of_ne hu]
    exact h.others u hu
  have hlock := h.lock
  unfold LineEditor.key
  cases hended : s.editor.ended with
  | true =>
    rw [hended, if_pos rfl] at hlock
    have hsame : k.keyboard t = s.kernel.keyboard t := by
      rw [hkb]
      by_cases hc : c = 0x0A
      · rw [hc, typed_locked_newline hlock]
      · exact typed_locked (by omega) hc
    rw [if_pos rfl]
    refine ⟨?_, ?_, ?_, fun hx => ?_, hinside, hothers⟩
    · exact (congrArg KeyboardStruct.contents hsame).trans h.contents
    · exact (congrArg KeyboardStruct.enterLock hsame).trans h.lock
    · exact (congrArg KeyboardStruct.top hsame).trans_le h.top_le
    · exact absurd (hended.symm.trans hx) (by decide)
  | false =>
    rw [hended, if_neg (by decide)] at hlock
    have hroom := h.room hended
    rw [if_neg (by decide)]
    by_cases hc : c = 0x0A
    · subst hc
      obtain ⟨hline, hlocked⟩ := typed_newline hlock (by omega)
      have hlen := congrArg List.length hline
      rw [KeyboardStruct.contents_length, List.length_append, KeyboardStruct.contents_length,
        List.length_singleton] at hlen
      rw [if_pos rfl]
      refine ⟨?_, ?_, ?_, (fun hx => by cases hx), hinside, hothers⟩
      · exact (congrArg KeyboardStruct.contents hkb).trans (hline.trans (by rw [h.contents]))
      · exact (congrArg KeyboardStruct.enterLock hkb).trans hlocked
      · refine (congrArg KeyboardStruct.top hkb).trans_le ?_
        omega
    · obtain ⟨hline, hopen⟩ := typed_edit hlock (by omega) hc
      have hlen := editLine_length (s.kernel.keyboard t).contents (by rw [KeyboardStruct.contents_length]; omega) c
      rw [← hline, KeyboardStruct.contents_length] at hlen
      rw [if_neg hc]
      refine ⟨?_, ?_, ?_, fun _ => ?_, hinside, hothers⟩
      · exact (congrArg KeyboardStruct.contents hkb).trans (hline.trans (by rw [h.contents]))
      · exact (congrArg KeyboardStruct.enterLock hkb).trans hopen
      · refine (congrArg KeyboardStruct.top hkb).trans_le ?_
        omega
      · refine (congrArg KeyboardStruct.top hkb).trans_lt ?_
        omega

theorem EditsLine.congr (h : EditsLine k₀ t s) {k : Kernel} (hk : k.keyboard = s.kernel.keyboard) :
    EditsLine k₀ t ⟨k, s.editor⟩ := by
  obtain ⟨h₁, h₂, h₃, h₄, h₅, h₆⟩ := h
  rw [← hk] at h₁ h₂ h₃ h₄ h₅ h₆
  exact ⟨h₁, h₂, h₃, h₄, h₅, h₆⟩

theorem editStep_editsLine {ev : Event} (h : EditsLine k₀ t s) (hok : staysOnScreen t s ev)
    (hs : editStep img fs s ev = some s') : EditsLine k₀ t s' := by
  obtain ⟨k, hk, rfl⟩ := Option.map_eq_some_iff.mp hs
  have hkb := step_keyboard hk
  cases ev with
  | key e scanCode =>
    simp only [Event.keeping, Kernel.typedInto] at hkb
    cases hkey : s.kernel.keyed scanCode with
    | none =>
      rw [hkey] at hkb
      show EditsLine k₀ t ⟨k, ((s.kernel.keyed scanCode).map fun q => s.editor.key q.2).getD s.editor⟩
      rw [hkey]
      exact h.congr hkb
    | some q =>
      obtain ⟨u, c⟩ := q
      have hu : u = t := by
        unfold Kernel.keyed at hkey
        rw [show s.kernel.findOnscreenTerminalNum = some t from hok] at hkey
        simp only at hkey
        split at hkey
        · cases hkey
          rfl
        · cases hkey
      rw [hkey, hu] at hkb
      show EditsLine k₀ t ⟨k, ((s.kernel.keyed scanCode).map fun q => s.editor.key q.2).getD s.editor⟩
      rw [hkey]
      exact editsLine_key h hkb
  | _ => exact h.congr hkb

end Step

/-- **The keyboard buffer is a line editor** as long as its terminal is on screen and nobody reads. -/
theorem keyboard_edits_line (img : Image) (fs : Filesystem) (k : Kernel) (t : ℕ)
    (hk : (k.keyboard t).top = 0 ∧ (k.keyboard t).enterLock = 0) (s : Edited)
    (h : Reaches (editStep img fs) (staysOnScreen t) ⟨k, [], false⟩ s) : EditsLine k t s := by
  have hstart : EditsLine k t ⟨k, [], false⟩ := by
    refine ⟨?_, hk.2, hk.1.trans_le (by decide), fun _ => hk.1.trans_lt (by decide), fun _ _ => rfl, fun _ _ => rfl⟩
    exact List.length_eq_zero_iff.mp (by rw [KeyboardStruct.contents_length]; exact hk.1)
  exact h.invariant hstart fun _ _ _ hs hok hstep => editStep_editsLine hs hok hstep

/-- `a`, Tab, Backspace and Enter, typed while the first shell runs. -/
theorem keyboard_edits_line_typed : ∃ s, Reaches (editStep Image.small (Image.WellFormed.pointers Image.small))
    (staysOnScreen 0) ⟨firstShell, [], false⟩ s ∧ s.editor.line = [0x61, 0x20, 0x20, 0x20, 0x0A] ∧
      EditsLine firstShell 0 s := by
  let events : List Event := [0x1E, 0x0F, 0x0E, 0x1C].map (Event.key (Entry.below eightMb 64))
  have hobs : (runEvents (guarded (editStep Image.small (Image.WellFormed.pointers Image.small))
      fun s ev => staysOnScreen 0 s ev) ⟨firstShell, [], false⟩ events).map (fun s => s.editor.line) =
        some [0x61, 0x20, 0x20, 0x20, 0x0A] := by decide +kernel
  obtain ⟨s, hs, hline⟩ := Option.map_eq_some_iff.mp hobs
  have hok : ∀ (s : Edited) (ev : Event), decide (staysOnScreen 0 s ev) = true → staysOnScreen 0 s ev :=
    fun _ _ htest => of_decide_eq_true htest
  have hrun := reaches_of_guarded hok (reaches_of_runEvents hs)
  exact ⟨s, hrun, hline, keyboard_edits_line _ _ firstShell 0 ⟨rfl, rfl⟩ s hrun⟩

end Kernel391
