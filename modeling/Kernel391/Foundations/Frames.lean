import Kernel391.Foundations.X86

/-! Frames on a stack that grows down, as lists of words from the stack pointer up. A push puts
a word in front, a pop takes it off, and a frame is kept as long as its bytes are. -/
namespace Kernel391.Foundations
set_option autoImplicit false

/-- The words `ws` lie one behind the other from `a` on. -/
def WordsAt (m : Word → BitVec 8) : Word → List Word → Prop
  | _, [] => True
  | a, w :: ws => load32 m a = w ∧ WordsAt m (a + 4) ws

section Frames
variable {m m' : Word → BitVec 8} {a v w : Word} {ws : List Word}

theorem inside_behind {n : ℕ} {b : Word} (hn : n + 4 ≤ 2 ^ 32) (h : Inside (a + 4) n b) : Inside a (n + 4) b := by
  unfold Inside at h ⊢
  bv_omega

theorem not_inside_below {n : ℕ} {b : Word} (hn : n + 4 ≤ 2 ^ 32) (h : Inside a n b) : ¬ Inside (a - 4) 4 b := by
  unfold Inside at h ⊢
  bv_omega

theorem WordsAt.congr (h : WordsAt m a ws) (hlen : 4 * ws.length ≤ 2 ^ 32)
    (hm : ∀ b, Inside a (4 * ws.length) b → m' b = m b) :
    WordsAt m' a ws := by
  induction ws generalizing a with
  | nil => exact trivial
  | cons w ws ih =>
    rw [List.length_cons] at hlen hm
    obtain ⟨hw, hws⟩ := h
    refine ⟨?_, ih hws (by omega) fun b hb => hm b ?_⟩
    · rw [← hw]
      apply load32_congr
      intro b hb
      apply hm
      unfold Inside at hb ⊢
      omega
    · exact inside_behind (by omega) hb

theorem WordsAt.store (h : WordsAt m a ws) (hlen : 4 * ws.length + 4 ≤ 2 ^ 32) :
    WordsAt (store32 m (a - 4) v) (a - 4) (v :: ws) := by
  refine ⟨load32_store32, ?_⟩
  rw [BitVec.sub_add_cancel]
  exact h.congr (by omega) fun b hb => store32_outside (not_inside_below hlen hb)

end Frames

end Kernel391.Foundations
