import Kernel391.System.LineFrame

/-! The modifier flags beside the keys that are held down. Two keys share a flag, the right
one of Ctrl and Alt comes behind the code 0xE0, and repeats are told by the last code alone. -/
namespace Kernel391
open Kernel391.Foundations
set_option autoImplicit false

/-! ## The keys -/

/-- A key: its code, and whether 0xE0 announces it. -/
structure Key where
  extended : Bool
  code : ℕ
  deriving DecidableEq

inductive KeyMove
  | press
  | again
  | release
  deriving DecidableEq

namespace Key

def leftShift : Key := ⟨false, 0x2A⟩
def rightShift : Key := ⟨false, 0x36⟩
def leftCtrl : Key := ⟨false, 0x1D⟩
def rightCtrl : Key := ⟨true, 0x1D⟩
def leftAlt : Key := ⟨false, 0x38⟩
def rightAlt : Key := ⟨true, 0x38⟩
def capsLock : Key := ⟨false, 0x3A⟩

/-- The keys there are: no extended one doubles Shift, Caps Lock or F1 to F3. -/
def Real (key : Key) : Prop :=
  0 < key.code ∧ key.code < 0x60 ∧ (key.extended = true → key.code ∉ [0x2A, 0x36, 0x3A, 0x3B, 0x3C, 0x3D])

instance (key : Key) : Decidable key.Real := inferInstanceAs (Decidable (_ ∧ _))

def twin (key : Key) : Option Key :=
  if key = leftShift then some rightShift
  else if key = rightShift then some leftShift
  else if key = leftCtrl then some rightCtrl
  else if key = rightCtrl then some leftCtrl
  else if key = leftAlt then some rightAlt
  else if key = rightAlt then some leftAlt
  else none

def scanCode (key : Key) : KeyMove → ℕ
  | .release => key.code + 0x80
  | _ => key.code

end Key

/-! ## A keyboard at the kernel -/

/-- The kernel, the keys held down, whether 0xE0 was the last code, how often Caps Lock was pressed and how
often its flag changed. -/
structure Typist where
  kernel : Kernel
  down : Key → Bool
  announced : Bool
  presses : ℕ
  toggles : ℕ

inductive TypistEvent
  /-- An event of the kernel other than a keystroke. -/
  | event (ev : Event)
  | announce (e : Entry)
  | code (e : Entry) (key : Key) (move : KeyMove)

def Typist.start (k : Kernel) : Typist := ⟨k, fun _ => false, false, 0, 0⟩

section Steps
variable (img : Image) (fs : Filesystem)

/-- The kernel reads a code; without a terminal on screen the code stays where it is. -/
def Typist.reads (s : Typist) (e : Entry) (temp : ℕ) : Option Typist :=
  if s.kernel.findOnscreenTerminalNum ≠ none then
    (step img fs s.kernel (.key e temp)).map fun k =>
      { s with kernel := k, toggles := if k.keys.capslock = s.kernel.keys.capslock then s.toggles else s.toggles + 1 }
  else none

/-- A key is pressed when it is up, and repeated or released when it is down. -/
def typistStep (s : Typist) : TypistEvent → Option Typist
  | .event (.key _ _) => none
  | .event ev => (step img fs s.kernel ev).map fun k => { s with kernel := k }
  | .announce e =>
    if s.announced = false then (s.reads img fs e doubleCode).map fun s => { s with announced := true } else none
  | .code e key move =>
    if key.Real ∧ s.announced = key.extended ∧ (move = .press ↔ s.down key = false) then
      (s.reads img fs e (key.scanCode move)).map fun s =>
        { s with
          down := Function.update s.down key (move ≠ .release)
          announced := false
          presses := if key = Key.capsLock ∧ move = .press then s.presses + 1 else s.presses }
    else none

end Steps

structure FlagsTrack (s : Typist) : Prop where
  shift : s.kernel.keys.shift = 1 ↔ s.down Key.leftShift = true ∨ s.down Key.rightShift = true
  ctrl : s.kernel.keys.ctrl = 1 ↔ s.down Key.leftCtrl = true ∨ s.down Key.rightCtrl = true
  alt : s.kernel.keys.alt = 1 ↔ s.down Key.leftAlt = true ∨ s.down Key.rightAlt = true
  capslock : s.kernel.keys.capslock = s.presses % 2
  toggles : s.toggles = s.presses

/-- No modifier is released while its twin is down, and Caps Lock repeats only right behind its own code. -/
def separate (s : Typist) : TypistEvent → Prop
  | .code _ key .release => ∀ twin, key.twin = some twin → s.down twin = false
  | .code _ key .again => key = Key.capsLock → s.kernel.keys.oldData = 0x3A
  | _ => True

/-! ## What a code does to the flags -/

namespace KeyState
variable (s : KeyState) (temp : ℕ)

theorem press_shift : (s.press temp).shift =
    if temp = s.oldData ∨ s.oldData = doubleCode then s.shift
    else if temp = 0xAA ∨ temp = 0xB6 then 0 else if temp = 0x2A ∨ temp = 0x36 then 1 else s.shift := by
  unfold press functionKey
  by_cases hold : temp = s.oldData
  · rw [if_neg (fun h => h hold), if_pos (Or.inl hold)]
  rw [if_pos hold]
  by_cases hdouble : s.oldData = doubleCode
  · simp only [hdouble, or_true, if_true]
    split <;> rfl
  · simp only [hold, hdouble, or_self, if_false]
    split <;> simp_all

theorem press_ctrl : (s.press temp).ctrl =
    if temp = s.oldData then s.ctrl else if temp = 0x9D then 0 else if temp = 0x1D then 1 else s.ctrl := by
  unfold press functionKey
  by_cases hold : temp = s.oldData
  · rw [if_neg (fun h => h hold), if_pos hold]
  rw [if_pos hold, if_neg hold]
  simp only
  split
  · split <;> simp_all
  · split <;> simp_all

theorem press_alt : (s.press temp).alt =
    if temp = s.oldData then s.alt else if temp = 0xB8 then 0 else if temp = 0x38 then 1 else s.alt := by
  unfold press functionKey
  by_cases hold : temp = s.oldData
  · rw [if_neg (fun h => h hold), if_pos hold]
  rw [if_pos hold, if_neg hold]
  simp only
  split
  · split <;> simp_all
  · split <;> simp_all

theorem press_capslock : (s.press temp).capslock =
    if temp = s.oldData ∨ s.oldData = doubleCode ∨ temp ≠ 0x3A then s.capslock else s.capslock ^^^ 1 := by
  unfold press functionKey
  by_cases hold : temp = s.oldData
  · rw [if_neg (fun h => h hold), if_pos (Or.inl hold)]
  rw [if_pos hold]
  by_cases hdouble : s.oldData = doubleCode
  · simp only [hdouble, true_or, or_true, if_true]
    split <;> rfl
  · simp only [hold, hdouble, false_or, if_false]
    split <;> simp_all

end KeyState

/-! ## What the kernel does with a code -/

/-- The flags are those of the code; the code is noted unless it opens a terminal. -/
structure ReadsCode (s s' : KeyState) (temp : ℕ) : Prop where
  shift : s'.shift = (s.press temp).shift
  ctrl : s'.ctrl = (s.press temp).ctrl
  alt : s'.alt = (s.press temp).alt
  capslock : s'.capslock = (s.press temp).capslock
  oldData : s'.oldData = temp ∨ s'.oldData = s.oldData ∧ 59 ≤ temp ∧ temp < 62

section Reading
variable {img : Image} {fs : Filesystem} {k k' : Kernel} {temp : ℕ}

theorem press_oldData (s : KeyState) (temp : ℕ) : (s.press temp).oldData = s.oldData := by
  unfold KeyState.press KeyState.functionKey
  split
  · simp only
    split
    · split <;> rfl
    · split <;> rfl
  · rfl

theorem readsCode_handleScanCode (k : Kernel) (e : Entry) (curr temp : ℕ) :
    ReadsCode k.keys (handleScanCode img fs k e curr temp).input.keys temp := by
  unfold handleScanCode
  by_cases hh : k.keys.handled temp = true
  · rw [if_pos hh]
    generalize hk₁ : ({ k with keys := k.keys.press temp } : Kernel) = k₁
    have hkeys : k₁.keys = k.keys.press temp := by rw [← hk₁]
    have h := congrArg Input.keys (@input_combination img fs k₁ e temp)
    have hleft : ∀ k₂, (combination img fs k₁ e temp).input.keys = k₁.keys →
        combination img fs k₁ e temp = .gone k₂ ∨ combination img fs k₁ e temp = .fault k₂ →
        ReadsCode k.keys k₂.keys temp := by
      intro k₂ hin hout
      have hk₂ : k₂.keys = k.keys.press temp := by
        rcases hout with hout | hout
        · rw [hout] at hin
          exact hin.trans hkeys
        · rw [hout] at hin
          exact hin.trans hkeys
      refine ⟨by rw [hk₂], by rw [hk₂], by rw [hk₂], by rw [hk₂], Or.inr ⟨by rw [hk₂, press_oldData], ?_⟩⟩
      unfold combination at hout
      cases hreq : k₁.keys.requestedTerminal temp with
      | none =>
        rw [hreq] at hout
        rcases hout with hout | hout <;> cases hout
      | some t =>
        unfold KeyState.requestedTerminal at hreq
        split at hreq
        · next hc => exact ⟨hc.2.2.2, hc.1⟩
        · cases hreq
    simp only
    cases hc : combination img fs k₁ e temp with
    | ret r k₂ =>
      rw [hc] at h
      have hk₂ : (k₂.acceptChar curr (k₂.keys.currentChar temp)).keys = k.keys.press temp :=
        (keyboard_acceptChar k₂ curr _).2.trans (h.trans hkeys)
      show ReadsCode k.keys { (k₂.acceptChar curr (k₂.keys.currentChar temp)).keys with oldData := temp } temp
      rw [hk₂]
      exact ⟨rfl, rfl, rfl, rfl, Or.inl rfl⟩
    | gone k₂ => exact hleft k₂ h (Or.inl hc)
    | fault k₂ => exact hleft k₂ h (Or.inr hc)
  · rw [if_neg hh]
    have hsame : k.keys.press temp = k.keys := by
      unfold KeyState.handled at hh
      unfold KeyState.press
      rw [if_neg fun hne => hh (decide_eq_true (Or.inl hne))]
    exact ⟨by rw [hsame]; rfl, by rw [hsame]; rfl, by rw [hsame]; rfl, by rw [hsame]; rfl, Or.inl rfl⟩

/-- **A code that is read** moves the flags. -/
theorem readsCode_key {e : Entry} (hon : k.findOnscreenTerminalNum ≠ none) (h : step img fs k (.key e temp) = some k') :
    ReadsCode k.keys k'.keys temp := by
  have hin : k'.keys = (handleKeyboard img fs (k.interrupted e) e temp).input.keys := congrArg Input.keys (step_input h)
  rw [hin]
  unfold handleKeyboard
  cases hon' : (k.interrupted e).findOnscreenTerminalNum with
  | none => exact absurd hon' hon
  | some t =>
    simp only
    generalize hk₀ : (k.interrupted e).setAttrib (color ((some t).getD 255)) = k₀
    generalize (k₀.pcb (getPcb k₀.cpu.esp)).terminalInfo = info
    have hkeys : (k₀.borrowScreen info t).keys = k.keys := by
      have h := input_borrowScreen k₀ info t
      rw [← hk₀, ignores_input.setAttrib, hk₀] at h
      exact congrArg Input.keys h
    have hread := @readsCode_handleScanCode img fs (k₀.borrowScreen info t) e t temp
    rw [hkeys] at hread
    cases hs : handleScanCode img fs (k₀.borrowScreen info t) e t temp with
    | ret r k₁ =>
      rw [hs] at hread
      have hret : ∀ page info, (Outcome.ret 0 (k₁.returnScreen page info t)).input.keys = k₁.keys :=
        fun page info => congrArg Input.keys (input_returnScreen k₁ page info t)
      simp only
      rw [hret]
      exact hread
    | gone k₁ =>
      rw [hs] at hread
      exact hread
    | fault k₁ =>
      rw [hs] at hread
      exact hread

theorem keys_event {ev : Event} (h : step img fs k ev = some k') (hev : ∀ e temp, ev ≠ .key e temp) :
    k'.keys = k.keys := by
  have hin := congrArg Input.keys (step_input h)
  cases ev with
  | key e temp => exact absurd rfl (hev e temp)
  | _ => exact hin

end Reading

/-! ## The invariant -/

/-- A flag of two keys that have the same code, with the last code noted. -/
structure PairTold (flag oldData code : ℕ) (left right : Bool) : Prop where
  flag : flag = 1 ↔ left = true ∨ right = true
  pressed : oldData = code → left = true ∨ right = true
  released : oldData = code + 0x80 → left = false ∧ right = false

section Pair
variable {flag oldData flag' oldData' temp code : ℕ} {left right : Bool}

theorem PairTold.other (h : PairTold flag oldData code left right) (h₁ : temp ≠ code) (h₂ : temp ≠ code + 0x80)
    (hold : oldData' = temp ∨ oldData' = oldData) : PairTold flag oldData' code left right where
  flag := h.flag
  pressed hx := by
    rcases hold with ho | ho
    · exact absurd (ho.symm.trans hx) h₁
    · exact h.pressed (ho.symm.trans hx)
  released hx := by
    rcases hold with ho | ho
    · exact absurd (ho.symm.trans hx) h₂
    · exact h.released (ho.symm.trans hx)

theorem PairTold.press (h : PairTold flag oldData code left right) {left' right' : Bool}
    (hdown : left' = true ∨ right' = true)
    (hold : oldData' = code) (hflag : flag' = if code = oldData then flag else 1) :
    PairTold flag' oldData' code left' right' where
  flag := by
    refine iff_of_true ?_ hdown
    rw [hflag]
    split
    · next heq => exact h.flag.mpr (h.pressed heq.symm)
    · rfl
  pressed _ := hdown
  released hx := by omega

theorem PairTold.release (h : PairTold flag oldData code left right) (hdown : left = true ∨ right = true)
    (hold : oldData' = code + 0x80) (hflag : flag' = if code + 0x80 = oldData then flag else 0) :
    PairTold flag' oldData' code false false where
  flag := by
    refine iff_of_false ?_ (by decide)
    rw [hflag]
    split
    · next heq =>
      obtain ⟨hl, hr⟩ := h.released heq.symm
      rw [hl, hr] at hdown
      exact absurd hdown (by decide)
    · decide
  pressed hx := by omega
  released _ := ⟨rfl, rfl⟩

end Pair

/-- A flag of two keys that have codes of their own. -/
structure SidesTold (flag oldData leftCode rightCode : ℕ) (left right : Bool) : Prop where
  flag : flag = 1 ↔ left = true ∨ right = true
  left : (oldData = leftCode → left = true) ∧ (oldData = leftCode + 0x80 → left = false)
  right : (oldData = rightCode → right = true) ∧ (oldData = rightCode + 0x80 → right = false)

section Sides
variable {flag oldData flag' oldData' a b : ℕ} {left right : Bool}

theorem SidesTold.symm (h : SidesTold flag oldData a b left right) : SidesTold flag oldData b a right left :=
  ⟨by rw [h.flag, or_comm], h.right, h.left⟩

theorem SidesTold.other (h : SidesTold flag oldData a b left right) {temp : ℕ} (h₁ : temp ≠ a ∧ temp ≠ a + 0x80)
    (h₂ : temp ≠ b ∧ temp ≠ b + 0x80) (hold : oldData' = temp ∨ oldData' = oldData) :
    SidesTold flag oldData' a b left right := by
  rcases hold with rfl | rfl
  · exact ⟨h.flag, ⟨fun hx => absurd hx h₁.1, fun hx => absurd hx h₁.2⟩,
      ⟨fun hx => absurd hx h₂.1, fun hx => absurd hx h₂.2⟩⟩
  · exact h

theorem SidesTold.press (h : SidesTold flag oldData a b left right) (ha : a < 0x60) (hb : b < 0x60) (hab : a ≠ b)
    (hold : oldData' = a) (hflag : flag' = if a = oldData then flag else 1) :
    SidesTold flag' oldData' a b true right where
  flag := by
    refine iff_of_true ?_ (Or.inl rfl)
    rw [hflag]
    split
    · next heq => exact h.flag.mpr (Or.inl (h.left.1 heq.symm))
    · rfl
  left := ⟨fun _ => rfl, fun hx => by omega⟩
  right := ⟨fun hx => by omega, fun hx => by omega⟩

theorem SidesTold.release (h : SidesTold flag oldData a b true false) (ha : a < 0x60) (hb : b < 0x60) (hab : a ≠ b)
    (hold : oldData' = a + 0x80) (hflag : flag' = if a + 0x80 = oldData then flag else 0) :
    SidesTold flag' oldData' a b false false where
  flag := by
    refine iff_of_false ?_ (by decide)
    rw [hflag]
    split
    · next heq => exact absurd (h.left.2 heq.symm) (by decide)
    · decide
  left := ⟨fun hx => by omega, fun _ => rfl⟩
  right := ⟨fun hx => by omega, fun hx => by omega⟩

end Sides

structure CapsTold (s : Typist) : Prop where
  flag : s.kernel.keys.capslock = s.presses % 2
  toggles : s.toggles = s.presses
  pressed : s.kernel.keys.oldData = 0x3A → s.down Key.capsLock = true

/-- What the kernel has noted agrees with the keys. -/
structure Told (s : Typist) : Prop where
  announced : s.kernel.keys.oldData = doubleCode ↔ s.announced = true
  shift : SidesTold s.kernel.keys.shift s.kernel.keys.oldData 0x2A 0x36 (s.down Key.leftShift) (s.down Key.rightShift)
  ctrl : PairTold s.kernel.keys.ctrl s.kernel.keys.oldData 0x1D (s.down Key.leftCtrl) (s.down Key.rightCtrl)
  alt : PairTold s.kernel.keys.alt s.kernel.keys.oldData 0x38 (s.down Key.leftAlt) (s.down Key.rightAlt)
  caps : CapsTold s

theorem Told.tracks {s : Typist} (h : Told s) : FlagsTrack s :=
  ⟨h.shift.flag, h.ctrl.flag, h.alt.flag, h.caps.flag, h.caps.toggles⟩

/-! ## One code keeps it -/

section Code
variable {down : Key → Bool} {key : Key} {move : KeyMove} {c flag oldData flag' oldData' : ℕ}

theorem scanCode_press (hkey : key.code < 0x60) (hc : c < 0x60) :
    key.scanCode move = c ↔ key.code = c ∧ move ≠ .release := by
  cases move with
  | release =>
    refine iff_of_false ?_ fun h => h.2 rfl
    show key.code + 0x80 ≠ c
    omega
  | press => exact ⟨fun h => ⟨h, by decide⟩, fun h => h.1⟩
  | again => exact ⟨fun h => ⟨h, by decide⟩, fun h => h.1⟩

theorem scanCode_release (hkey : key.code < 0x60) :
    key.scanCode move = c + 0x80 ↔ key.code = c ∧ move = .release := by
  cases move with
  | release =>
    show key.code + 0x80 = c + 0x80 ↔ key.code = c ∧ _
    exact ⟨fun h => ⟨by omega, rfl⟩, fun h => by omega⟩
  | press =>
    refine iff_of_false ?_ fun h => by cases h.2
    show key.code ≠ c + 0x80
    omega
  | again =>
    refine iff_of_false ?_ fun h => by cases h.2
    show key.code ≠ c + 0x80
    omega

theorem pair_step (h : PairTold flag oldData c (down ⟨false, c⟩) (down ⟨true, c⟩)) (hc : c < 59)
    (hkey : key.code < 0x60)
    (hmove : move = .press ↔ down key = false) (hsep : move = .release → ∀ ext, key = ⟨ext, c⟩ → down ⟨!ext, c⟩ = false)
    (hflag : flag' = if key.scanCode move = oldData then flag
      else if key.scanCode move = c + 0x80 then 0 else if key.scanCode move = c then 1 else flag)
    (hold : oldData' = key.scanCode move ∨ oldData' = oldData ∧ 59 ≤ key.scanCode move ∧ key.scanCode move < 62) :
    PairTold flag' oldData' c (Function.update down key (move ≠ .release) ⟨false, c⟩)
      (Function.update down key (move ≠ .release) ⟨true, c⟩) := by
  have hpress := @scanCode_press key move c hkey (by omega)
  have hrelease := @scanCode_release key move c hkey
  by_cases hcode : key.code = c
  · obtain ⟨ext, hext⟩ : ∃ ext, key = ⟨ext, c⟩ := ⟨key.extended, by rw [← hcode]⟩
    by_cases hrel : move = .release
    · have htemp := hrelease.mpr ⟨hcode, hrel⟩
      have hdown : down key = true := by
        rw [← Bool.not_eq_false]
        exact fun hx => by cases (hmove.mpr hx).symm.trans hrel
      have hup := hsep hrel ext hext
      rw [htemp] at hold hflag
      rw [if_pos rfl] at hflag
      have hboth : Function.update down key (move ≠ .release) ⟨false, c⟩ = false ∧
          Function.update down key (move ≠ .release) ⟨true, c⟩ = false := by
        subst hext hrel
        cases ext with
        | false => exact ⟨Function.update_self _ _ _, by rw [Function.update_of_ne (by simp)]; exact hup⟩
        | true => exact ⟨by rw [Function.update_of_ne (by simp)]; exact hup, Function.update_self _ _ _⟩
      rw [hboth.1, hboth.2]
      refine h.release ?_ (by omega) hflag
      subst hext
      cases ext with
      | false => exact Or.inl hdown
      | true => exact Or.inr hdown
    · have htemp := hpress.mpr ⟨hcode, hrel⟩
      rw [htemp] at hold hflag
      rw [if_neg (show ¬ c = c + 0x80 by omega), if_pos rfl] at hflag
      refine h.press ?_ (by omega) hflag
      subst hext
      cases ext with
      | false => exact Or.inl ((Function.update_self _ _ _).trans (decide_eq_true hrel))
      | true => exact Or.inr ((Function.update_self _ _ _).trans (decide_eq_true hrel))
  · have hne₁ : key.scanCode move ≠ c := fun hx => hcode (hpress.mp hx).1
    have hne₂ : key.scanCode move ≠ c + 0x80 := fun hx => hcode (hrelease.mp hx).1
    rw [if_neg hne₂, if_neg hne₁, ite_self] at hflag
    rw [Function.update_of_ne (fun hx => hcode (by rw [← hx])),
      Function.update_of_ne (fun hx => hcode (by rw [← hx])), hflag]
    exact h.other hne₁ hne₂ (hold.imp_right fun hx => hx.1)

theorem side_step {a b : ℕ} (h : SidesTold flag oldData a b (down ⟨false, a⟩) (down ⟨false, b⟩))
    (ha : a < 59) (hb : b < 59)
    (hab : a ≠ b) (hmove : move = .press ↔ down ⟨false, a⟩ = false) (hsep : move = .release → down ⟨false, b⟩ = false)
    (hflag : flag' = if Key.scanCode ⟨false, a⟩ move = oldData then flag
      else if Key.scanCode ⟨false, a⟩ move = a + 0x80 then 0 else 1)
    (hold : oldData' = Key.scanCode ⟨false, a⟩ move ∨
      oldData' = oldData ∧ 59 ≤ Key.scanCode ⟨false, a⟩ move ∧ Key.scanCode ⟨false, a⟩ move < 62) :
    SidesTold flag' oldData' a b (Function.update down ⟨false, a⟩ (move ≠ .release) ⟨false, a⟩)
      (Function.update down ⟨false, a⟩ (move ≠ .release) ⟨false, b⟩) := by
  have hne : (⟨false, b⟩ : Key) ≠ ⟨false, a⟩ := fun hx => hab (Key.mk.inj hx).2.symm
  rw [Function.update_self, Function.update_of_ne hne]
  by_cases hrel : move = .release
  · subst hrel
    have hdown : down ⟨false, a⟩ = true := by
      rw [← Bool.not_eq_false]
      exact fun hx => by cases hmove.mpr hx
    have hcode : Key.scanCode ⟨false, a⟩ .release = a + 0x80 := rfl
    rw [hcode] at hflag hold
    rw [if_pos rfl] at hflag
    have hup := hsep rfl
    rw [hdown, hup] at h
    rw [hup]
    exact h.release (by omega) (by omega) hab (by omega) hflag
  · have hcode : Key.scanCode ⟨false, a⟩ move = a := by
      cases move with
      | release => exact absurd rfl hrel
      | press => rfl
      | again => rfl
    rw [hcode] at hflag hold
    rw [if_neg (show ¬ a = a + 0x80 by omega)] at hflag
    rw [decide_eq_true hrel]
    exact h.press (by omega) (by omega) hab (by omega) hflag

end Code

section Run
variable {img : Image} {fs : Filesystem} {s s' : Typist}

theorem reads_eq {e : Entry} {temp : ℕ} (h : s.reads img fs e temp = some s') :
    ReadsCode s.kernel.keys s'.kernel.keys temp ∧
    s'.down = s.down ∧ s'.presses = s.presses ∧
    s'.toggles = if s'.kernel.keys.capslock = s.kernel.keys.capslock then s.toggles else s.toggles + 1 := by
  unfold Typist.reads at h
  split at h
  · next hon =>
    obtain ⟨k, hk, rfl⟩ := Option.map_eq_some_iff.mp h
    exact ⟨readsCode_key hon hk, rfl, rfl, rfl⟩
  · cases h

theorem told_announce {e : Entry} (h : Told s) (hr : s.reads img fs e doubleCode = some s') :
    Told { s' with announced := true } := by
  obtain ⟨hread, hdown, hpresses, htoggles⟩ := reads_eq hr
  have hold : s'.kernel.keys.oldData = doubleCode := hread.oldData.resolve_right fun hx => absurd hx.2.2 (by decide)
  have hshift : s'.kernel.keys.shift = s.kernel.keys.shift := by
    rw [hread.shift, KeyState.press_shift, if_neg (show ¬ (doubleCode = 0xAA ∨ doubleCode = 0xB6) by decide),
      if_neg (show ¬ (doubleCode = 0x2A ∨ doubleCode = 0x36) by decide), ite_self]
  have hctrl : s'.kernel.keys.ctrl = s.kernel.keys.ctrl := by
    rw [hread.ctrl, KeyState.press_ctrl, if_neg (show ¬ doubleCode = 0x9D by decide),
      if_neg (show ¬ doubleCode = 0x1D by decide), ite_self]
  have halt : s'.kernel.keys.alt = s.kernel.keys.alt := by
    rw [hread.alt, KeyState.press_alt, if_neg (show ¬ doubleCode = 0xB8 by decide),
      if_neg (show ¬ doubleCode = 0x38 by decide), ite_self]
  have hcaps : s'.kernel.keys.capslock = s.kernel.keys.capslock := by
    rw [hread.capslock, KeyState.press_capslock, if_pos (Or.inr (Or.inr (by decide)))]
  refine ⟨iff_of_true hold rfl, ?_, ?_, ?_, ?_⟩
  · show SidesTold s'.kernel.keys.shift s'.kernel.keys.oldData 0x2A 0x36 (s'.down Key.leftShift)
      (s'.down Key.rightShift)
    rw [hold, hshift, hdown]
    exact h.shift.other (by decide) (by decide) (Or.inl rfl)
  · show PairTold s'.kernel.keys.ctrl s'.kernel.keys.oldData 0x1D (s'.down Key.leftCtrl) (s'.down Key.rightCtrl)
    rw [hctrl, hdown]
    exact h.ctrl.other (by decide) (by decide) (Or.inl hold)
  · show PairTold s'.kernel.keys.alt s'.kernel.keys.oldData 0x38 (s'.down Key.leftAlt) (s'.down Key.rightAlt)
    rw [halt, hdown]
    exact h.alt.other (by decide) (by decide) (Or.inl hold)
  · refine ⟨?_, ?_, fun hx => ?_⟩
    · show s'.kernel.keys.capslock = s'.presses % 2
      rw [hcaps, hpresses, h.caps.flag]
    · show s'.toggles = s'.presses
      rw [htoggles, if_pos hcaps, hpresses, h.caps.toggles]
    · exact absurd (hold.symm.trans hx) (by decide)

section Told
variable {e : Entry} {key : Key} {move : KeyMove} (h : Told s) (hkey : key.Real) (hann : s.announced = key.extended)
  (hmove : move = .press ↔ s.down key = false) (hread : ReadsCode s.kernel.keys s'.kernel.keys (key.scanCode move))
include h hkey hann hmove hread

theorem shift_code (hsep : move = .release → ∀ twin, key.twin = some twin → s.down twin = false) :
    SidesTold s'.kernel.keys.shift s'.kernel.keys.oldData 0x2A 0x36
      (Function.update s.down key (move ≠ .release) Key.leftShift)
      (Function.update s.down key (move ≠ .release) Key.rightShift) := by
  have hflag := hread.shift
  rw [KeyState.press_shift] at hflag
  have hplain : key.extended = false → s.kernel.keys.oldData ≠ doubleCode := fun hx hd => by
    have := h.announced.mp hd
    rw [hann, hx] at this
    cases this
  by_cases hl : key = Key.leftShift
  · subst hl
    refine side_step h.shift (by decide) (by decide) (by decide) hmove
      (fun hx => hsep hx _ (by decide)) ?_ hread.oldData
    rw [hflag]
    simp only [hplain rfl, or_false]
    cases move <;> rfl
  by_cases hr : key = Key.rightShift
  · subst hr
    refine (side_step h.shift.symm (by decide) (by decide) (by decide) hmove (fun hx => hsep hx _ (by decide)) ?_
      hread.oldData).symm
    rw [hflag]
    simp only [hplain rfl, or_false]
    cases move <;> rfl
  have hcode : key.code ≠ 0x2A ∧ key.code ≠ 0x36 := by
    obtain ⟨ext, code⟩ := key
    cases ext with
    | false => exact ⟨fun hx => hl (congrArg _ hx), fun hx => hr (congrArg _ hx)⟩
    | true =>
      have hnot := hkey.2.2 rfl
      simp only [List.mem_cons, not_or] at hnot
      exact ⟨hnot.1, hnot.2.1⟩
  have hlt := hkey.2.1
  have hleft : key.scanCode move ≠ 0x2A ∧ key.scanCode move ≠ 0x2A + 0x80 :=
    ⟨fun hx => hcode.1 ((scanCode_press hlt (by decide)).mp hx).1, fun hx => hcode.1 ((scanCode_release hlt).mp hx).1⟩
  have hright : key.scanCode move ≠ 0x36 ∧ key.scanCode move ≠ 0x36 + 0x80 :=
    ⟨fun hx => hcode.2 ((scanCode_press hlt (by decide)).mp hx).1, fun hx => hcode.2 ((scanCode_release hlt).mp hx).1⟩
  rw [if_neg (show ¬ (key.scanCode move = 0xAA ∨ key.scanCode move = 0xB6) from fun hx => hx.elim hleft.2 hright.2),
    if_neg (show ¬ (key.scanCode move = 0x2A ∨ key.scanCode move = 0x36) from fun hx => hx.elim hleft.1 hright.1),
    ite_self] at hflag
  rw [hflag, Function.update_of_ne (Ne.symm hl), Function.update_of_ne (Ne.symm hr)]
  exact h.shift.other hleft hright (hread.oldData.imp_right fun hx => hx.1)

omit hann in
theorem ctrl_code (hsep : move = .release → ∀ twin, key.twin = some twin → s.down twin = false) :
    PairTold s'.kernel.keys.ctrl s'.kernel.keys.oldData 0x1D
      (Function.update s.down key (move ≠ .release) Key.leftCtrl)
      (Function.update s.down key (move ≠ .release) Key.rightCtrl) := by
  have hflag := hread.ctrl
  rw [KeyState.press_ctrl] at hflag
  refine pair_step h.ctrl (by decide) hkey.2.1 hmove (fun hx ext hext => hsep hx _ ?_) hflag hread.oldData
  cases ext <;> (rw [hext]; decide)

omit hann in
theorem alt_code (hsep : move = .release → ∀ twin, key.twin = some twin → s.down twin = false) :
    PairTold s'.kernel.keys.alt s'.kernel.keys.oldData 0x38
      (Function.update s.down key (move ≠ .release) Key.leftAlt)
      (Function.update s.down key (move ≠ .release) Key.rightAlt) := by
  have hflag := hread.alt
  rw [KeyState.press_alt] at hflag
  refine pair_step h.alt (by decide) hkey.2.1 hmove (fun hx ext hext => hsep hx _ ?_) hflag hread.oldData
  cases ext <;> (rw [hext]; decide)

theorem caps_code (hagain : move = .again → key = Key.capsLock → s.kernel.keys.oldData = 0x3A) :
    s'.kernel.keys.capslock =
        (if key = Key.capsLock ∧ move = .press then s.kernel.keys.capslock ^^^ 1 else s.kernel.keys.capslock) ∧
      (s'.kernel.keys.oldData = 0x3A → Function.update s.down key (move ≠ .release) Key.capsLock = true) := by
  have hflag := hread.capslock
  rw [KeyState.press_capslock] at hflag
  by_cases hcaps : key = Key.capsLock
  · subst hcaps
    rw [Function.update_self]
    have hplain : s.kernel.keys.oldData ≠ doubleCode := fun hd => by
      have := h.announced.mp hd
      rw [hann] at this
      cases this
    cases move with
    | press =>
      have hup := hmove.mp rfl
      have hfresh : ¬ Key.scanCode Key.capsLock .press = s.kernel.keys.oldData := fun hx => by
        rw [h.caps.pressed hx.symm] at hup
        cases hup
      refine ⟨?_, fun _ => by decide⟩
      rw [if_pos ⟨rfl, rfl⟩, hflag, if_neg]
      exact fun hx => hx.elim hfresh fun hx => hx.elim hplain fun hx => hx rfl
    | again =>
      refine ⟨?_, fun _ => by decide⟩
      have hsame : Key.scanCode Key.capsLock .again = s.kernel.keys.oldData := (hagain rfl rfl).symm
      rw [if_neg (fun hx => by cases hx.2), hflag, if_pos (Or.inl hsame)]
    | release =>
      refine ⟨?_, fun hx => ?_⟩
      · rw [if_neg (fun hx => by cases hx.2), hflag, if_pos (Or.inr (Or.inr (by decide)))]
      · rcases hread.oldData with ho | ho
        · exact absurd (ho.symm.trans hx) (by decide)
        · exact absurd ho.2.2 (by decide)
  · have hcode : key.scanCode move ≠ 0x3A := fun hx => by
      have hc := ((scanCode_press hkey.2.1 (by decide)).mp hx).1
      obtain ⟨ext, code⟩ := key
      cases ext with
      | false => exact hcaps (congrArg _ hc)
      | true =>
        have hnot := hkey.2.2 rfl
        simp only [List.mem_cons, not_or] at hnot
        exact hnot.2.2.1 hc
    rw [if_neg (fun hx => hcaps hx.1), hflag, if_pos (Or.inr (Or.inr hcode)), Function.update_of_ne (Ne.symm hcaps)]
    refine ⟨rfl, fun hx => ?_⟩
    rcases hread.oldData with ho | ho
    · exact absurd (ho.symm.trans hx) hcode
    · exact h.caps.pressed (ho.1.symm.trans hx)

end Told

theorem flip_parity (n : ℕ) : (n % 2) ^^^ 1 = (n + 1) % 2 := by
  rcases Nat.mod_two_eq_zero_or_one n with h | h
  · rw [h, Nat.add_mod, h]
    rfl
  · rw [h, Nat.add_mod, h]
    rfl

theorem told_code {e : Entry} {key : Key} {move : KeyMove} (h : Told s) (hkey : key.Real)
    (hann : s.announced = key.extended)
    (hmove : move = .press ↔ s.down key = false) (hsep : separate s (.code e key move))
    (hr : s.reads img fs e (key.scanCode move) = some s') :
    Told { s' with
      down := Function.update s'.down key (move ≠ .release)
      announced := false
      presses := if key = Key.capsLock ∧ move = .press then s'.presses + 1 else s'.presses } := by
  obtain ⟨hread, hdown, hpresses, htoggles⟩ := reads_eq hr
  have htwin : move = .release → ∀ twin, key.twin = some twin → s.down twin = false := by
    rintro rfl
    exact hsep
  have hagain : move = .again → key = Key.capsLock → s.kernel.keys.oldData = 0x3A := by
    rintro rfl
    exact hsep
  obtain ⟨hcaps, hpressed⟩ := caps_code h hkey hann hmove hread hagain
  rw [hdown, hpresses]
  refine ⟨?_, shift_code h hkey hann hmove hread htwin, ctrl_code h hkey hmove hread htwin,
    alt_code h hkey hmove hread htwin, ?_, ?_, hpressed⟩
  · refine iff_of_false (fun hx => ?_) (fun hx => by cases hx)
    have hlt := hkey.2.1
    have hne : key.scanCode move < 0xE0 := by
      cases move with
      | release =>
        show key.code + 0x80 < 0xE0
        omega
      | press => exact Nat.lt_trans hlt (by decide)
      | again => exact Nat.lt_trans hlt (by decide)
    rcases hread.oldData with ho | ho
    · exact absurd (ho.symm.trans hx) (Nat.ne_of_lt hne)
    · have hext := (hann.symm.trans (h.announced.mp (ho.1.symm.trans hx)))
      obtain ⟨ext, code⟩ := key
      cases hext
      have hnot := hkey.2.2 rfl
      have hcode : Key.scanCode ⟨true, code⟩ move = code := by
        cases move with
        | release =>
          have := ho.2.2
          change code + 0x80 < 62 at this
          omega
        | press => rfl
        | again => rfl
      rw [hcode] at ho
      simp only [List.mem_cons, List.not_mem_nil, or_false, not_or] at hnot
      omega
  · show s'.kernel.keys.capslock = (if key = Key.capsLock ∧ move = .press then s.presses + 1 else s.presses) % 2
    rw [hcaps, h.caps.flag]
    split
    · exact flip_parity _
    · rfl
  · show s'.toggles = if key = Key.capsLock ∧ move = .press then s.presses + 1 else s.presses
    rw [htoggles, hcaps, h.caps.toggles]
    split
    · rw [h.caps.flag, flip_parity, if_neg (by omega)]
    · rw [if_pos rfl]

theorem typistStep_told {ev : TypistEvent} (h : Told s) (hok : separate s ev) (hs : typistStep img fs s ev = some s') :
    Told s' := by
  cases ev with
  | event ev =>
    have hquiet : ∀ k, step img fs s.kernel ev = some k → (∀ e temp, ev ≠ .key e temp) →
      Told { s with kernel := k } := by
      intro k hk hne
      have hkeys := keys_event hk hne
      refine ⟨?_, ?_, ?_, ?_, ?_, ?_, ?_⟩
      all_goals simp only [hkeys]
      · exact h.announced
      · exact h.shift
      · exact h.ctrl
      · exact h.alt
      · exact h.caps.flag
      · exact h.caps.toggles
      · exact h.caps.pressed
    cases ev with
    | key e temp => cases hs
    | _ =>
      obtain ⟨k, hk, rfl⟩ := Option.map_eq_some_iff.mp hs
      exact hquiet k hk fun _ _ hx => by cases hx
  | announce e =>
    simp only [typistStep] at hs
    split at hs
    · obtain ⟨s₁, hr, rfl⟩ := Option.map_eq_some_iff.mp hs
      exact told_announce h hr
    · cases hs
  | code e key move =>
    simp only [typistStep] at hs
    split at hs
    · next hc =>
      obtain ⟨s₁, hr, rfl⟩ := Option.map_eq_some_iff.mp hs
      exact told_code h hc.1 hc.2.1 hc.2.2 hok hr
    · cases hs

end Run

/-- **The flags track the keys** in every run in which no modifier is released while its twin is down and Caps Lock
repeats only right behind its own code. -/
theorem flags_track_keys (img : Image) (fs : Filesystem) (k : Kernel) (hk : k.keys = ⟨0, 0, 0, 0, 0, holdingInit⟩)
    (s : Typist) (h : Reaches (typistStep img fs) separate (Typist.start k) s) : FlagsTrack s := by
  have hstart : Told (Typist.start k) := by
    unfold Typist.start
    refine ⟨?_, ⟨?_, ?_, ?_⟩, ⟨?_, ?_, ?_⟩, ⟨?_, ?_, ?_⟩, ?_, ?_, ?_⟩
    all_goals simp only [hk]
    all_goals decide
  exact (h.invariant hstart fun _ _ _ hs hok hstep => typistStep_told hs hok hstep).tracks

def separateTest (s : Typist) : TypistEvent → Bool
  | .code _ key .release =>
    match key.twin with
    | some twin => !s.down twin
    | none => true
  | .code _ key .again => key ≠ Key.capsLock ∨ s.kernel.keys.oldData = 0x3A
  | _ => true

theorem separate_of_test (s : Typist) (ev : TypistEvent) (h : separateTest s ev = true) : separate s ev := by
  cases ev with
  | code e key move =>
    cases move with
    | press => exact trivial
    | again =>
      intro hcaps
      exact (of_decide_eq_true h).resolve_left fun hne => hne hcaps
    | release =>
      intro twin htwin
      simp only [separateTest, htwin] at h
      exact Bool.not_eq_true' _ |>.mp h
  | _ => exact trivial

/-- A key moved while the first shell runs. -/
def TypistEvent.moved (key : Key) (move : KeyMove) : TypistEvent := .code (Entry.below eightMb 64) key move

/-- The left Shift key goes down and up. -/
theorem flags_track_keys_shift : ∃ s, Reaches (typistStep Image.small (Image.WellFormed.pointers Image.small)) separate
    (Typist.start firstShell) s ∧ s.kernel.keys.oldData = 0xAA ∧ FlagsTrack s := by
  let events : List TypistEvent := [.moved Key.leftShift .press, .moved Key.leftShift .release]
  have hobs : (runEvents (guarded (typistStep Image.small (Image.WellFormed.pointers Image.small)) separateTest)
      (Typist.start firstShell) events).map (fun s => s.kernel.keys.oldData) = some 0xAA := by decide +kernel
  obtain ⟨s, hs, hold⟩ := Option.map_eq_some_iff.mp hobs
  have hrun := reaches_of_guarded separate_of_test (reaches_of_runEvents hs)
  exact ⟨s, hrun, hold, flags_track_keys _ _ firstShell rfl s hrun⟩

/-- Both Shift keys go down, and the left one up. -/
theorem flags_miss_twin : ∃ k s, k.keys = ⟨0, 0, 0, 0, 0, holdingInit⟩ ∧
    Reaches (typistStep Image.small (Image.WellFormed.pointers Image.small)) anyStep (Typist.start k) s ∧
      ¬ FlagsTrack s := by
  let events : List TypistEvent :=
    [.moved Key.leftShift .press, .moved Key.rightShift .press, .moved Key.leftShift .release]
  have hobs : (runEvents (typistStep Image.small (Image.WellFormed.pointers Image.small)) (Typist.start firstShell)
      events).map (fun s => (s.kernel.keys.shift, s.down Key.rightShift)) = some (0, true) := by decide +kernel
  obtain ⟨s, hs, hse⟩ := Option.map_eq_some_iff.mp hobs
  rw [Prod.mk.injEq] at hse
  refine ⟨firstShell, s, rfl, reaches_of_runEvents hs, fun h => ?_⟩
  have hshift := h.shift.mpr (Or.inr hse.2)
  rw [hse.1] at hshift
  cases hshift

end Kernel391
