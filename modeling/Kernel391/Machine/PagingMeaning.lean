import Kernel391.Machine.Paging

/-! What the page tables mean: the walk on the pages of the first 4 MB, the copy between
two mapped ranges, and the exchange of the displayed screen. -/
namespace Kernel391
open Kernel391.Foundations
set_option autoImplicit false

/-- The page a terminal keeps its screen on while it is not displayed. -/
def fakePage (t : ℕ) : ℕ := video + eightKb * (t + 1) / 2

theorem fakePage_eq (t : ℕ) : fakePage t = video + fourKb * (t + 1) := by
  simp only [fakePage, eightKb, fourKb]
  omega

def screenBytes : ℕ := numRows * numCols * 2

/-- The entries of the first page table that are set once and for all. -/
structure FixedMap (directory : PageDirEntry) (table : ℕ → ℕ) : Prop where
  directory : directory = .table .pageTbl 3
  fake : ∀ t < 3, table (pgTblIdx + 1 + t) = videoPageFlags + (t + 1) * fourKb
  last : table (tableSz - 1) = videoPageFlags

namespace Kernel
variable {k : Kernel}

theorem translate_first {i page o : ℕ} (hdir : k.pageDir 0 = .table .pageTbl 3) (hi : i < tableSz)
    (hpage : k.pageTbl i = page * fourKb + 3) (ho : o < fourKb) :
    k.translate (i * fourKb + o) = some (page * fourKb + o) := by
  simp only [tableSz, fourKb] at hi ho hpage ⊢
  have h0 : (i * 4096 + o) / 2 ^ 22 = 0 := by omega
  have hidx : tableIdx (i * 4096 + o) = i := by
    unfold tableIdx
    omega
  have hpresent : (page * 4096 + 3) % 2 = 1 := by omega
  have hval : (page * 4096 + 3) / 2 ^ 12 * 2 ^ 12 + (i * 4096 + o) % 2 ^ 12 = page * 4096 + o := by omega
  unfold translate
  rw [h0, hdir]
  simp only [hidx, tableOf, hpage, hpresent, hval]
  rfl

variable (hm : FixedMap (k.pageDir 0) k.pageTbl)
include hm

theorem translate_fake {t o : ℕ} (ht : t < 3) (ho : o < fourKb) :
    k.translate (fakePage t + o) = some (fakePage t + o) := by
  have hpage : k.pageTbl (pgTblIdx + 1 + t) = (pgTblIdx + 1 + t) * fourKb + 3 := by
    rw [hm.fake t ht]
    simp only [pgTblIdx, videoPageFlags, fourKb]
    omega
  have h := translate_first hm.directory (by simp only [pgTblIdx, tableSz]; omega) hpage ho
  have haddr : (pgTblIdx + 1 + t) * fourKb = fakePage t := by
    rw [fakePage_eq]
    simp only [pgTblIdx, fourKb, video]
    omega
  rwa [haddr] at h

theorem translate_formula {o : ℕ} (ho : o < fourKb) :
    k.translate (locationOfTheKrabbyPattySecretFormula + o) = some (video + o) :=
  @translate_first _ (tableSz - 1) pgTblIdx _ hm.directory (by decide) (by rw [hm.last]; rfl) ho

end Kernel

/-! ## Copies -/

/-- Memory after `n` bytes are copied from `s` to `d`. -/
def copied (m : ℕ → UInt8) (d s n : ℕ) : ℕ → UInt8 :=
  fun a => if d ≤ a ∧ a < d + n then m (s + (a - d)) else m a

/-- **`memcpy`** between two mapped ranges that do not overlap. -/
theorem Kernel.memcpy_eq {k : Kernel} {dest src d s n : ℕ} (hd : ∀ i < n, k.translate (dest + i) = some (d + i))
    (hs : ∀ i < n, k.translate (src + i) = some (s + i)) (hdis : d + n ≤ s ∨ s + n ≤ d) :
    k.memcpy dest src n = .ok { k with phys := copied k.phys d s n } := by
  induction n generalizing k dest src d s with
  | zero =>
    have h : copied k.phys d s 0 = k.phys := by
      funext a
      exact if_neg (by omega)
    rw [h]
    rfl
  | succ n ih =>
    have hs0 : k.translate src = some s := hs 0 (by omega)
    have hd0 : k.translate dest = some d := hd 0 (by omega)
    have hput : ByteStore.put k dest (k.phys s) =
        .ok { k with phys := Function.update k.phys d (k.phys s) } := by
      unfold ByteStore.put instByteStoreKernel
      simp only [hd0]
    have hd' : ∀ i < n, k.translate (dest + 1 + i) = some (d + 1 + i) := by
      intro i hi
      have := hd (i + 1) (by omega)
      rwa [show dest + (i + 1) = dest + 1 + i by omega, show d + (i + 1) = d + 1 + i by omega] at this
    have hs' : ∀ i < n, k.translate (src + 1 + i) = some (s + 1 + i) := by
      intro i hi
      have := hs (i + 1) (by omega)
      rwa [show src + (i + 1) = src + 1 + i by omega, show s + (i + 1) = s + 1 + i by omega] at this
    have hrec := ih (k := { k with phys := Function.update k.phys d (k.phys s) }) hd' hs' (by omega)
    simp only [memcpy, hs0, hput, hrec]
    congr 2
    funext a
    unfold copied
    rcases Nat.lt_trichotomy a d with h | h | h
    · rw [if_neg (by omega), if_neg (by omega), Function.update_of_ne (by omega)]
    · subst h
      rw [if_neg (by omega), if_pos (by omega), Function.update_self, Nat.sub_self, Nat.add_zero]
    · by_cases hlt : a < d + (n + 1)
      · rw [if_pos (by omega), if_pos (by omega), Function.update_of_ne (by omega),
          show s + 1 + (a - (d + 1)) = s + (a - d) by omega]
      · rw [if_neg (by omega), if_neg (by omega), Function.update_of_ne (by omega)]

/-- Memory after the displayed screen is saved for terminal `t` and that of `u` is loaded. -/
def exchanged (m : ℕ → UInt8) (t u : ℕ) : ℕ → UInt8 :=
  copied (copied m (fakePage t) video screenBytes) video (fakePage u) screenBytes

/-- **The exchange of screens** never faults. -/
theorem Kernel.switchKernelMemory_eq {k : Kernel} (hm : FixedMap (k.pageDir 0) k.pageTbl) {t u : ℕ}
    (ht : t < 3) (hu : u < 3) :
    k.switchKernelMemory (fakePage t) (fakePage u) = .ok { k with phys := exchanged k.phys t u } := by
  have hlt : ∀ i < numRows * numCols * 2, i < fourKb := by
    intro i hi
    simp only [numRows, numCols, fourKb] at hi ⊢
    omega
  have h₁ := Kernel.memcpy_eq (fun i hi => translate_fake hm ht (hlt i hi))
    (fun i hi => translate_formula hm (hlt i hi)) (by
      rw [fakePage_eq]
      simp only [numRows, numCols, fourKb]
      omega)
  have h₂ := Kernel.memcpy_eq
    (k := { k with phys := copied k.phys (fakePage t) video (numRows * numCols * 2) })
    (fun i hi => translate_formula hm (hlt i hi)) (fun i hi => translate_fake hm hu (hlt i hi)) (by
      rw [fakePage_eq]
      simp only [numRows, numCols, fourKb]
      omega)
  unfold switchKernelMemory
  simp only [h₁, h₂]
  rfl

end Kernel391
