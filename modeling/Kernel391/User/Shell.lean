import Kernel391.Process.ProgramStart
import Kernel391.User.TypedLines

/-! `ece391shell.c`. What the shell prints is told by the lines that are typed and by what the calls of
`execute` answer: the kernel's own answer when it refuses, and 0 when the program runs, however it ends. -/
namespace Kernel391
open Kernel391.Foundations
set_option autoImplicit false

/-- A host for a program that starts others: where `execute` runs, and what the started program leaves at its end. -/
structure ShellHost extends Host where
  entry : ℕ → Kernel → Entry
  caller : ℕ → Kernel → Cpu
  ended : ℕ → Kernel → Kernel

section Execute
variable (h : ShellHost)

/-- What comes back from the call, and the kernel then. When the started program ends the call returns 0:
what `halt` passed in EAX is overwritten by the last statement of `execute`. -/
def ShellHost.answer (n : ℕ) (k : Kernel) (command : List UInt8) : Option (ℤ × Kernel) :=
  match execute h.img h.fs k (h.entry n k) (h.caller n k) command with
  | .ret r k' => some (r, k')
  | .gone k' => some (0, h.ended n k')
  | .fault _ => none

def ece391Execute (command : ℕ) : User ℤ := do
  modify h.enter
  let s ← get
  match h.answer s.calls s.kernel (stringAt s.memory command) with
  | none => throw .fault
  | some (r, k) =>
    set { s with kernel := k }
    pure r

end Execute

namespace Shell

def starting : List UInt8 := ascii "Starting 391 Shell\n".toList
def prompt : List UInt8 := ascii "391OS> ".toList
def readFailed : List UInt8 := ascii "read from keyboard failed\n".toList
def exit : List UInt8 := ascii "exit".toList
def noSuchCommand : List UInt8 := ascii "no such command\n".toList
def byException : List UInt8 := ascii "program terminated by exception\n".toList
def abnormally : List UInt8 := ascii "program terminated abnormally\n".toList

def texts : List (List UInt8) := [starting, prompt, readFailed, exit, noSuchCommand, byException, abnormally]

section Main
variable (h : ShellHost) (lit : List UInt8 → ℕ) (buf fuel : ℕ)

def command : User (Unit ⊕ ℤ) := do
  let rval ← ece391Execute h buf
  if rval = -1 then do
    ece391Fdputs h.toHost fuel 1 (lit noSuchCommand)
    pure (.inl ())
  else if rval = 256 then do
    ece391Fdputs h.toHost fuel 1 (lit byException)
    pure (.inl ())
  else if rval ≠ 0 then do
    ece391Fdputs h.toHost fuel 1 (lit abnormally)
    pure (.inl ())
  else pure (.inl ())

def lineEnd (cnt : ℤ) : User ℤ :=
  if cnt > 0 then do
    let c ← loadByte (uint32 (buf + (cnt - 1)))
    if c = 0x0A then pure (cnt - 1) else pure cnt
  else pure cnt

/-- One round of the loop of `main`. -/
def round (_ : Unit) : User (Unit ⊕ ℤ) := do
  ece391Fdputs h.toHost fuel 1 (lit prompt)
  let cnt ← ece391Read h.toHost 0 buf 1023
  if cnt = -1 then do
    ece391Fdputs h.toHost fuel 1 (lit readFailed)
    pure (.inr 3)
  else do
    let cnt ← lineEnd buf cnt
    storeByte (uint32 (buf + cnt)) 0
    let r ← ece391Strcmp fuel buf (lit exit)
    if r = 0 then pure (.inr 0)
    else do
      let c ← loadByte buf
      if c = 0 then pure (.inl ()) else command h lit buf fuel

def main : User ℤ := do
  ece391Fdputs h.toHost fuel 1 (lit starting)
  loop .unfinished (round h lit buf fuel) fuel ()

end Main

/-! ## The dialogue -/

/-- A line, and the answer to its command. -/
structure Turn where
  line : List UInt8
  answer : ℤ

def message (r : ℤ) : List UInt8 :=
  if r = -1 then noSuchCommand else if r = 256 then byException else if r ≠ 0 then abnormally else []

def Turn.printed (t : Turn) : List UInt8 := prompt ++ if t.line = [] then [] else message t.answer

def Turn.calls (t : Turn) : ℕ := if t.line = [] then 2 else if message t.answer = [] then 3 else 4

end Shell

/-- The `n`-th call, of `execute`, answers `r` and leaves the shell what it has. -/
def ShellHost.Answers (h : ShellHost) (p n : ℕ) (command : List UInt8) (r : ℤ) : Prop :=
  ∀ k, k.Serves p → ∃ k', h.answer (n + 1) (h.elsewhere n k) command = some (r, k') ∧ k'.Serves p ∧
    k'.getPcbNow.belongings = k.getPcbNow.belongings

/-- The rounds from the `n`-th call on: the turns, and then `exit`. -/
def ShellHost.Plays (h : ShellHost) (p : ℕ) : ℕ → List Shell.Turn → Prop
  | n, [] => h.Types p (n + 1) Shell.exit
  | n, t :: ts =>
    h.Types p (n + 1) t.line ∧ t.line ≠ Shell.exit ∧ (t.line ≠ [] → h.Answers p (n + 2) t.line t.answer) ∧
      h.Plays p (n + t.calls) ts

/-! ## One round -/

section Calls
variable {h : ShellHost} {p n a : ℕ} {s : UserState} {l : List UInt8} {r : ℤ}

theorem answer_cases {k k' : Kernel} (ha : h.answer n k l = some (r, k')) : r = -1 ∨ r = 0 := by
  unfold ShellHost.answer at ha
  cases he : execute h.img h.fs k (h.entry n k) (h.caller n k) l with
  | ret r' k₁ =>
    simp only [he, Option.some.injEq, Prod.mk.injEq] at ha
    exact Or.inl (ha.1 ▸ (execute_ret he).1)
  | gone k₁ =>
    simp only [he, Option.some.injEq, Prod.mk.injEq] at ha
    exact Or.inr ha.1.symm
  | fault k₁ => simp [he] at ha

/-- Of the messages the shell has, the kernel's answers call for one only. -/
theorem answers_message (hanswers : h.Answers p n l r) (hserves : s.kernel.Serves p) :
    Shell.message r = Shell.noSuchCommand ∨ Shell.message r = [] := by
  obtain ⟨k', hk', -⟩ := hanswers s.kernel hserves
  rcases answer_cases hk' with rfl | rfl
  · exact Or.inl rfl
  · exact Or.inr rfl

theorem answers_refused (hsp : h.Spares p) (hrefused : ∀ k, Refused h.img h.fs (executableName (h.entry (n + 1) k) l)
    (h.entry (n + 1) k).magicNumbers k ∧
    checkExecutable h.img h.fs (h.entry (n + 1) k).magicNumbers (executableName (h.entry (n + 1) k) l) ≠ none) :
    h.Answers p n l (-1) := by
  intro k hk
  obtain ⟨href, hcheck⟩ := hrefused (h.elsewhere n k)
  have hexec := @execute_refused h.img h.fs (h.elsewhere n k) (h.entry (n + 1) (h.elsewhere n k))
    (h.caller (n + 1) (h.elsewhere n k)) l href
  refine ⟨h.elsewhere n k, ?_, hsp.serves n k hk, hsp.belongings n k hk⟩
  unfold ShellHost.answer
  rw [hexec.resolve_right hcheck]

theorem ends_execute (hs : s.Running p) (hl : StringIn s.memory a l) (hanswer : h.Answers p s.calls l r) :
    Ends (ece391Execute h a) s fun r' s' =>
      r' = r ∧ s'.Running p ∧ s'.memory = s.memory ∧ s'.printed = s.printed ∧ s'.calls = s.calls + 1 := by
  obtain ⟨k, hk, hserves, hbel⟩ := hanswer s.kernel hs.serves
  have hcall : h.answer (h.enter s).calls (h.enter s).kernel (stringAt (h.enter s).memory a) = some (r, k) := by
    rw [← hk, ← hl.stringAt_eq]
    rfl
  unfold ece391Execute
  simp only [ends_bind, ends_modify, ends_get, hcall, ends_set, ends_pure, true_and]
  exact ⟨⟨hserves, holds_of_belongings hbel hs.stdin, holds_of_belongings hbel hs.stdout⟩, rfl, rfl, rfl⟩

end Calls

section Rounds
variable {h : ShellHost} {p buf fuel : ℕ} {lit : List UInt8 → ℕ} {s : UserState} {t : Shell.Turn}

/-- What a part of the program leaves when it has printed `cs` in `n` calls. -/
structure Shell.Leaves (p buf : ℕ) (lit : List UInt8 → ℕ) (s s' : UserState) (cs : List UInt8) (n : ℕ) : Prop where
  running : s'.Running p
  layout : Layout lit Shell.texts [(buf, 1024)] s'.memory
  printed : s'.printed = s.printed ++ cs
  calls : s'.calls = s.calls + n

theorem Shell.ends_text (hsp : h.Spares p) (hs : s.Running p) (hlay : Layout lit Shell.texts [(buf, 1024)] s.memory)
    {l : List UInt8} (hl : l ∈ Shell.texts) (hfuel : 33 ≤ fuel) :
    Ends (ece391Fdputs h.toHost fuel 1 (lit l)) s fun _ s' => Shell.Leaves p buf lit s s' l 1 := by
  have hall : ∀ l ∈ Shell.texts, l.length < 33 := by decide
  have hlen := hall l hl
  refine (ends_puts hs hsp (hlay.strings l hl) (by omega)).mono ?_
  rintro _ s' ⟨hprints, hcalls⟩
  exact ⟨hprints.running, hprints.memory ▸ hlay, hprints.printed, hcalls⟩

theorem Shell.ends_command (hsp : h.Spares p) (hs : s.Running p) (hlay : Layout lit Shell.texts [(buf, 1024)] s.memory)
    {l : List UInt8} (hl : StringIn s.memory buf l) {r : ℤ} (hanswer : h.Answers p s.calls l r) (hfuel : 33 ≤ fuel) :
    Ends (Shell.command h lit buf fuel) s fun o s' => o = .inl () ∧
      Shell.Leaves p buf lit s s' (Shell.message r) (if Shell.message r = [] then 1 else 2) := by
  have hfull : ∀ l ∈ Shell.texts, l ≠ [] := by decide
  unfold Shell.command
  refine (ends_execute hs hl hanswer).bind ?_
  rintro r₁ s₁ ⟨rfl, hrun, hm, hprinted, hcalls⟩
  have hlay₁ : Layout lit Shell.texts [(buf, 1024)] s₁.memory := hm ▸ hlay
  have htext : ∀ l ∈ Shell.texts,
    Ends (ece391Fdputs h.toHost fuel 1 (lit l) >>= fun _ => pure (Sum.inl ())) s₁ fun (o : Unit ⊕ ℤ) s' =>
      o = .inl () ∧ Shell.Leaves p buf lit s s' l (if l = [] then 1 else 2) := by
    intro l hmem
    refine (Shell.ends_text hsp hrun hlay₁ hmem hfuel).bind ?_
    rintro _ s₂ hleaves
    rw [ends_pure, if_neg (hfull l hmem)]
    exact ⟨rfl, hleaves.running, hleaves.layout, by rw [hleaves.printed, hprinted], by rw [hleaves.calls, hcalls]⟩
  unfold Shell.message
  by_cases hfailed : r₁ = -1
  · rw [if_pos hfailed, if_pos hfailed]
    exact htext _ (by decide)
  rw [if_neg hfailed, if_neg hfailed]
  by_cases hexception : r₁ = 256
  · rw [if_pos hexception, if_pos hexception]
    exact htext _ (by decide)
  rw [if_neg hexception, if_neg hexception]
  by_cases hstatus : r₁ ≠ 0
  · rw [if_pos hstatus, if_pos hstatus]
    exact htext _ (by decide)
  · rw [if_neg hstatus, if_neg hstatus, ends_pure, if_pos rfl]
    exact ⟨rfl, hrun, hlay₁, by rw [hprinted, List.append_nil], hcalls⟩

/-- **Up to the command**: the line without its newline is in the buffer. -/
theorem Shell.ends_round_line (hsp : h.Spares p) (hs : s.Running p)
    (hlay : Layout lit Shell.texts [(buf, 1024)] s.memory)
    {line : List UInt8} (htypes : h.Types p (s.calls + 1) line) (hfuel : 128 ≤ fuel) {Q : Unit ⊕ ℤ → UserState → Prop}
    (hexit : ∀ s', line = Shell.exit → Shell.Leaves p buf lit s s' Shell.prompt 2 → Q (.inr 0) s')
    (hempty : ∀ s', line ≠ Shell.exit → line = [] → Shell.Leaves p buf lit s s' Shell.prompt 2 → Q (.inl ()) s')
    (hcommand : ∀ s', line ≠ Shell.exit → line ≠ [] → Shell.Leaves p buf lit s s' Shell.prompt 2 →
      StringIn s'.memory buf line →
      Ends (Shell.command h lit buf fuel) s' Q) : Ends (Shell.round h lit buf fuel ()) s Q := by
  have hin : ∀ j < 1024, InPage (buf + j) := hlay.bufs (buf, 1024) (List.mem_singleton_self _)
  have hlen := htypes.length
  have hpage := hin 0 (by decide)
  have hend := hin line.length (by omega)
  simp only [InPage, programAddr, vmemAddr] at hpage hend
  unfold Shell.round
  refine (Shell.ends_text hsp hs hlay (by decide) (by omega)).bind ?_
  rintro _ s₁ h₁
  have htypes₁ : h.Types p s₁.calls line := h₁.calls ▸ htypes
  refine (ends_read_line h₁.running hsp htypes₁ (by omega) (by decide) (by decide)).bind ?_
  rintro _ s₂ ⟨rfl, h₂⟩
  have hbytes := @lineBytes_length 1023 line (by omega)
  obtain ⟨htake, -, hnewline⟩ := @lineBytes_take 1023 line
  have hread : overlay s₁.memory buf (lineBytes 1023 line) (buf + line.length) = 0x0A := by
    obtain ⟨hlt, hget⟩ := List.getElem?_eq_some_iff.mp hnewline
    rw [overlay_at _ _ _ _ hlt, hget]
  have hstring := @stringIn_cut s₁.memory buf (lineBytes 1023 line) line.length (by omega) (htake.symm ▸ htypes.noNul)
    fun i hi => hin i (by omega)
  rw [htake] at hstring
  have hlast : uint32 ((buf : ℤ) + (((line.length + 1 : ℕ) : ℤ) - 1)) = buf + line.length := by
    unfold uint32
    omega
  have hcut : ((line.length + 1 : ℕ) : ℤ) - 1 = line.length := by omega
  have hplace : uint32 ((buf : ℤ) + (line.length : ℤ)) = buf + line.length := by
    unfold uint32
    omega
  rw [if_neg (by omega)]
  unfold Shell.lineEnd
  rw [if_pos (by omega), hlast]
  simp only [ends_bind, ends_loadByte (hin line.length (by omega)), h₂.memory, hread, if_true, ends_pure]
  rw [hcut, hplace]
  simp only [ends_storeByte (hin line.length (by omega)), h₂.memory]
  obtain ⟨m, hm⟩ : ∃ m, m = Function.update (overlay s₁.memory buf (lineBytes 1023 line)) (buf + line.length) 0 :=
    ⟨_, rfl⟩
  have hsame : SameOutside [(buf, 1024)] s₁.memory m :=
    hm ▸ sameOutside_cut (List.mem_singleton_self _) (Nat.le_refl _) (by simp only; omega) (by omega)
  rw [← hm] at hstring ⊢
  have hleaves : Shell.Leaves p buf lit s { s₂ with memory := m } Shell.prompt 2 :=
    { running := ⟨h₂.running.serves, h₂.running.stdin, h₂.running.stdout⟩
      layout := h₁.layout.congr hsame
      printed := h₂.printed.trans h₁.printed
      calls := by rw [h₂.calls, h₁.calls] }
  refine (ends_strcmp hstring (hleaves.layout.strings Shell.exit (by decide)) (by omega)).mono ?_
  rintro r s₃ ⟨hr, rfl⟩
  by_cases hexit' : line = Shell.exit
  · rw [if_pos (hr.mpr hexit'), ends_pure]
    exact hexit _ hexit' hleaves
  · rw [if_neg (mt hr.mp hexit')]
    have hfirst := hstring.zero_iff (Nat.zero_le _)
    rw [Nat.add_zero] at hfirst
    have hpage₀ : InPage buf := hin 0 (by decide)
    simp only [ends_bind, ends_loadByte hpage₀]
    by_cases hnil : line = []
    · rw [if_pos (hfirst.mpr (by rw [hnil]; rfl)), ends_pure]
      exact hempty _ hexit' hnil hleaves
    · rw [if_neg fun hz => hnil (List.length_eq_zero_iff.mp (hfirst.mp hz).symm)]
      exact hcommand _ hexit' hnil hleaves hstring

/-- **A round** prints what its turn says, and `exit` ends the loop. -/
theorem Shell.ends_turn (hsp : h.Spares p) (hs : s.Running p) (hlay : Layout lit Shell.texts [(buf, 1024)] s.memory)
    (htypes : h.Types p (s.calls + 1) t.line) (hexit : t.line ≠ Shell.exit)
    (hanswer : t.line ≠ [] → h.Answers p (s.calls + 2) t.line t.answer) (hfuel : 128 ≤ fuel) :
    Ends (Shell.round h lit buf fuel ()) s fun o s' => o = .inl () ∧ Shell.Leaves p buf lit s s' t.printed t.calls := by
  refine Shell.ends_round_line hsp hs hlay htypes hfuel ?_ ?_ ?_
  · intro s' heq
    exact absurd heq hexit
  · intro s' _ hnil hleaves
    unfold Shell.Turn.printed Shell.Turn.calls
    rw [if_pos hnil, if_pos hnil, List.append_nil]
    exact ⟨rfl, hleaves⟩
  · intro s₁ _ hnil h₁ hstring
    have hanswer₁ : h.Answers p s₁.calls t.line t.answer := h₁.calls ▸ hanswer hnil
    refine (Shell.ends_command hsp h₁.running h₁.layout hstring hanswer₁ (by omega)).mono ?_
    rintro o s₂ ⟨ho, h₂⟩
    unfold Shell.Turn.printed Shell.Turn.calls
    rw [if_neg hnil, if_neg hnil]
    refine ⟨ho, h₂.running, h₂.layout, by rw [h₂.printed, h₁.printed, List.append_assoc], ?_⟩
    rw [h₂.calls, h₁.calls]
    split <;> rfl

theorem Shell.ends_exit (hsp : h.Spares p) (hs : s.Running p) (hlay : Layout lit Shell.texts [(buf, 1024)] s.memory)
    (htypes : h.Types p (s.calls + 1) Shell.exit) (hfuel : 128 ≤ fuel) :
    Ends (Shell.round h lit buf fuel ()) s fun o s' => o = .inr 0 ∧ s'.printed = s.printed ++ Shell.prompt := by
  refine Shell.ends_round_line hsp hs hlay htypes hfuel ?_ ?_ ?_
  · intro s' _ hleaves
    exact ⟨rfl, hleaves.printed⟩
  · intro s' hne
    exact absurd rfl hne
  · intro s' hne
    exact absurd rfl hne

end Rounds

/-- **The shell** answers every line that is typed, in order, until one is `exit`, whatever the rest of the system
does meanwhile. -/
theorem shell_dialogue (h : ShellHost) (p : ℕ) (lit : List UInt8 → ℕ) (buf : ℕ) (s : UserState)
    (st : Starts h.toHost p lit Shell.texts [(buf, 1024)] s) (turns : List Shell.Turn)
    (hplays : h.Plays p (s.calls + 1) turns) :
    ∀ fuel ≥ 128 + turns.length, Ends (Shell.main h lit buf fuel) s fun status s' =>
      status = 0 ∧ s'.printed = s.printed ++ Shell.starting ++ turns.flatMap Shell.Turn.printed ++ Shell.prompt := by
  intro fuel hfuel
  have hsp := st.spares
  unfold Shell.main
  refine (Shell.ends_text hsp st.running st.layout (by decide) (by omega)).bind ?_
  rintro _ s₁ h₁
  -- the turns that are left say what is still to be printed
  refine ends_loop (I := fun n _ t => ∃ ts, n = ts.length ∧ t.Running p ∧
    Layout lit Shell.texts [(buf, 1024)] t.memory ∧
    h.Plays p t.calls ts ∧ t.printed ++ ts.flatMap Shell.Turn.printed =
      s.printed ++ Shell.starting ++ turns.flatMap Shell.Turn.printed) ?_
    ⟨turns, rfl, h₁.running, h₁.layout, h₁.calls ▸ hplays, by rw [h₁.printed]⟩ (show turns.length < fuel by omega)
  rintro n ⟨⟩ t ⟨ts, rfl, hrun, hlay, hplays', hprinted⟩
  cases ts with
  | nil =>
    refine (Shell.ends_exit hsp hrun hlay hplays' (by omega)).mono ?_
    rintro o s₂ ⟨rfl, hp₂⟩
    refine ⟨rfl, ?_⟩
    rw [List.flatMap_nil, List.append_nil] at hprinted
    rw [hp₂, hprinted]
  | cons turn ts =>
    obtain ⟨htypes, hexit, hanswer, hrest⟩ := hplays'
    refine (Shell.ends_turn hsp hrun hlay htypes hexit hanswer (by omega)).mono ?_
    rintro o s₂ ⟨rfl, h₂⟩
    refine ⟨ts.length, Nat.lt_succ_self _, ts, rfl, h₂.running, h₂.layout, h₂.calls ▸ hrest, ?_⟩
    rw [h₂.printed, List.append_assoc]
    exact hprinted

/-! ## Three lines -/

/-- A process alone that starts others, with the lines typed at its calls. -/
def ShellHost.typing (img : Image) (lines : ℕ → List UInt8) : ShellHost where
  toHost := Host.typing img lines
  entry _ _ := Entry.below (eightMb - 64) 0
  caller _ k := k.cpu
  ended _ k := k

/-- An unknown command, an empty line, and `exit`. -/
def threeLines (n : ℕ) : List UInt8 := if n = 3 then ascii "vi".toList else if n = 7 then [] else Shell.exit

theorem shell_dialogue_three :
    Ends (Shell.main (ShellHost.typing Image.small threeLines) (literalAt Shell.texts) bufferAt 130)
    (UserState.start [] Shell.texts) fun status s' => status = 0 ∧
      s'.printed = ascii "Starting 391 Shell\n391OS> no such command\n391OS> 391OS> ".toList := by
  have hstr : ∀ l ∈ Shell.texts, StringIn (UserState.start [] Shell.texts).memory (literalAt Shell.texts l) l := by
    decide +kernel
  have hstarts := @start_starts Image.small Image.small_wellFormed small_special Shell.texts [(bufferAt, 1024)] [] hstr
    (by decide +kernel) (by decide)
  have hst : Starts (ShellHost.typing Image.small threeLines).toHost 0 (literalAt Shell.texts) Shell.texts
    [(bufferAt, 1024)]
      (UserState.start [] Shell.texts) := typing_starts hstarts
  have hname : executableName (Entry.below (eightMb - 64) 0) (ascii "vi".toList) = ascii "vi".toList := by
    decide +kernel
  have hplays : (ShellHost.typing Image.small threeLines).Plays 0 1 [⟨ascii "vi".toList, -1⟩, ⟨[], 0⟩] := by
    refine ⟨typing_types (by decide) (by decide), by decide, fun _ => answers_refused hst.spares fun k => ?_,
      typing_types (by decide) (by decide), by decide, fun hx => absurd rfl hx, typing_types (by decide) (by decide)⟩
    obtain ⟨r, hneg, hcheck⟩ := @checkExecutable_missing Image.small (ascii "vi".toList) (by decide) (by decide)
    have hat := hcheck (Entry.below (eightMb - 64) 0).magicNumbers
    rw [← hname] at hat
    exact ⟨Or.inl ⟨r, hneg, hat⟩, fun hnone => Option.some_ne_none r (hat.symm.trans hnone)⟩
  refine (shell_dialogue _ 0 _ _ _ hst _ hplays 130 (by decide)).mono ?_
  rintro status s' ⟨hstatus, hprinted⟩
  refine ⟨hstatus, hprinted.trans ?_⟩
  decide +kernel

end Kernel391
