import Kernel391.User.DescriptorCalls

/-! `ece391support.c`: the string functions the programs are linked with, on the bytes of
their page. A string ends inside the page, so no loop runs out of it. -/
namespace Kernel391
open Kernel391.Foundations
set_option autoImplicit false

/-- `ece391_strlen`. The locals are the pointer and the length. -/
def ece391Strlen (fuel s : ℕ) : User ℕ :=
  loop .unfinished (fun b : ℕ × ℕ => do
    let c ← loadByte b.1
    if c ≠ 0 then pure (.inl (b.1 + 1, b.2 + 1)) else pure (.inr b.2)) fuel (s, 0)

/-- `ece391_strcpy`. -/
def ece391Strcpy (fuel dst src : ℕ) : User Unit :=
  loop .unfinished (fun b : ℕ × ℕ => do
    let c ← loadByte b.2
    storeByte b.1 c
    if c ≠ 0 then pure (.inl (b.1 + 1, b.2 + 1)) else pure (.inr ())) fuel (dst, src)

/-- `ece391_strncmp`. The characters are unsigned. -/
def ece391Strncmp (fuel s1 s2 n : ℕ) : User ℤ :=
  if n = 0 then pure 0
  else
    loop .unfinished (fun b : ℕ × ℕ × ℕ => do
      let c1 ← loadByte b.1
      let c2 ← loadByte b.2.1
      if c1 = c2 then
        if c1 = 0 ∨ b.2.2 - 1 = 0 then pure (.inr 0) else pure (.inl (b.1 + 1, b.2.1 + 1, b.2.2 - 1))
      else pure (.inr ((c1.toNat : ℤ) - c2.toNat))) fuel (s1, s2, n)

/-- `ece391_strcmp`. -/
def ece391Strcmp (fuel s1 s2 : ℕ) : User ℤ :=
  loop .unfinished (fun b : ℕ × ℕ => do
    let c1 ← loadByte b.1
    let c2 ← loadByte b.2
    if c1 = c2 then
      if c1 = 0 then pure (.inr 0) else pure (.inl (b.1 + 1, b.2 + 1))
    else pure (.inr ((c1.toNat : ℤ) - c2.toNat))) fuel (s1, s2)

/-- `ece391_fdputs`. -/
def ece391Fdputs (h : Host) (fuel fd s : ℕ) : User Unit := do
  let len ← ece391Strlen fuel s
  let _ ← ece391Write h fd s len
  pure ()

/-! ## Strings of the page -/

section Bytes
variable {s : UserState} {a : ℕ}

theorem ends_loadByte (ha : InPage a) {Q : UInt8 → UserState → Prop} : Ends (loadByte a) s Q ↔ Q (s.memory a) s := by
  unfold loadByte
  simp only [ends_bind, ends_get, if_pos ha, ends_pure]

theorem ends_storeByte (ha : InPage a) {b : UInt8} {Q : Unit → UserState → Prop} :
    Ends (storeByte a b) s Q ↔ Q () { s with memory := Function.update s.memory a b } := by
  unfold storeByte
  simp only [ends_bind, ends_get, if_pos ha]
  exact ends_set _

end Bytes

/-- The string `l` stands at `a`, terminator included. -/
structure StringIn (m : ℕ → UInt8) (a : ℕ) (l : List UInt8) : Prop where
  holds : Holds m a l
  noNul : 0 ∉ l
  inside : ∀ i ≤ l.length, InPage (a + i)

namespace StringIn
variable {m m' : ℕ → UInt8} {a i : ℕ} {l : List UInt8}

theorem congr (h : StringIn m a l) (hm : ∀ i ≤ l.length, m' (a + i) = m (a + i)) : StringIn m' a l where
  holds := ⟨fun j hj => (hm j hj.le).trans (h.holds.chars j hj), (hm _ (Nat.le_refl _)).trans h.holds.nul⟩
  noNul := h.noNul
  inside := h.inside

theorem inPage (h : StringIn m a l) : InPage a := h.inside 0 (Nat.zero_le _)

theorem zero_iff (h : StringIn m a l) (hi : i ≤ l.length) : m (a + i) = 0 ↔ i = l.length := by
  constructor
  · intro hzero
    by_contra hne
    have hlt : i < l.length := by omega
    have hchar := h.holds.chars i hlt
    rw [hzero] at hchar
    exact h.noNul (hchar ▸ List.getElem_mem hlt)
  · rintro rfl
    exact h.holds.nul

theorem length_lt (h : StringIn m a l) : l.length < 2 ^ 31 := by
  have hfirst := (h.inside 0 (Nat.zero_le _)).1
  have hlast := (h.inside l.length (Nat.le_refl _)).2
  simp only [programAddr, vmemAddr] at hfirst hlast
  omega

theorem chunk_eq (h : StringIn m a l) : chunk m a l.length = l := by
  unfold chunk
  apply List.ext_getElem
  · simp
  · intro j h₁ h₂
    simp only [List.getElem_map, List.getElem_range]
    exact h.holds.chars j h₂

theorem stringAt_eq (h : StringIn m a l) : stringAt m a = l := by
  have hlast := (h.inside l.length (Nat.le_refl _)).2
  unfold stringAt
  rw [h.holds.window h.noNul, List.take_of_length_le (by omega)]

theorem filter_eq (h : StringIn m a l) : l.filter (· ≠ 0) = l := by
  rw [List.filter_eq_self]
  intro c hc
  exact decide_eq_true fun hx => h.noNul (hx ▸ hc)

end StringIn

/-! ## What the functions do -/

section Specs
variable {h : Host} {p : ℕ} {s : UserState} {a b fuel : ℕ} {l l' : List UInt8}

theorem ends_strlen (hl : StringIn s.memory a l) (hfuel : l.length < fuel) :
    Ends (ece391Strlen fuel a) s fun r s' => r = l.length ∧ s' = s := by
  -- the length so far is a place in the string
  refine ends_loop (I := fun n b s' => s' = s ∧ ∃ i ≤ l.length, b = (a + i, i) ∧ n = l.length - i) ?_
    ⟨rfl, 0, Nat.zero_le _, rfl, rfl⟩ hfuel
  rintro n _ t ⟨rfl, i, hi, rfl, rfl⟩
  rw [ends_bind, ends_loadByte (hl.inside i hi)]
  by_cases hend : i = l.length
  · have hzero : t.memory (a + i) = 0 := (hl.zero_iff hi).mpr hend
    simp only [hzero, ne_eq, not_true_eq_false, if_false, ends_pure]
    exact ⟨hend, rfl⟩
  · have hchar : t.memory (a + i) ≠ 0 := mt (hl.zero_iff hi).mp hend
    simp only [if_pos hchar, ends_pure]
    exact ⟨l.length - (i + 1), by omega, rfl, i + 1, by omega, rfl, rfl⟩

theorem ends_fdputs (hs : s.Running p) (hsp : h.Spares p) (hl : StringIn s.memory a l) (hfuel : l.length < fuel) :
    Ends (ece391Fdputs h fuel 1 a) s fun _ s' => Prints p s s' l := by
  unfold ece391Fdputs
  refine (ends_strlen hl hfuel).bind ?_
  rintro _ t ⟨rfl, rfl⟩
  refine (ends_write hs hsp hl.inPage (fun i hi => hl.inside i hi.le) hl.length_lt).bind ?_
  rintro _ s' ⟨-, hprints⟩
  rw [hl.chunk_eq, hl.filter_eq] at hprints
  exact (ends_pure _).mpr hprints

/-- **Copying a string** downwards, over itself if need be. -/
theorem ends_strcpy (hl : StringIn s.memory b l) (hle : a ≤ b) (hin : InPage a) (hfuel : l.length < fuel) :
    Ends (ece391Strcpy fuel a b) s fun _ s' => s' = { s with memory := overlay s.memory a (l ++ [0]) } := by
  have hdst : ∀ i ≤ l.length, InPage (a + i) := fun i hi =>
    ⟨Nat.le_add_right_of_le hin.1, lt_of_le_of_lt (by omega) (hl.inside i hi).2⟩
  -- the characters still to be read lie at or above the place to be written
  refine ends_loop (I := fun n b' s' => ∃ i ≤ l.length, s' = { s with memory := overlay s.memory a (l.take i) } ∧
    b' = (a + i, b + i) ∧ n = l.length - i) ?_ ⟨0, Nat.zero_le _, by rw [List.take_zero, overlay_nil], rfl, rfl⟩ hfuel
  rintro n _ _ ⟨i, hi, rfl, rfl, rfl⟩
  have hlen : (l.take i).length = i := by
    rw [List.length_take]
    omega
  have hsame : overlay s.memory a (l.take i) (b + i) = s.memory (b + i) := overlay_of_ge _ _ (by omega)
  have hstore : ∀ c, Function.update (overlay s.memory a (l.take i)) (a + i) c = overlay s.memory a
    (l.take i ++ [c]) := by
    intro c
    rw [overlay_append, overlay_single, hlen]
  simp only [ends_bind, ends_loadByte (hl.inside i hi), ends_storeByte (hdst i hi), hsame, hstore]
  by_cases hend : i = l.length
  · have hzero : s.memory (b + i) = 0 := (hl.zero_iff hi).mpr hend
    simp only [hzero, ne_eq, not_true_eq_false, if_false, ends_pure]
    show _ = _
    rw [List.take_of_length_le (by omega)]
  · have hchar : s.memory (b + i) ≠ 0 := mt (hl.zero_iff hi).mp hend
    have hlt : i < l.length := by omega
    simp only [if_pos hchar, ends_pure]
    refine ⟨l.length - (i + 1), by omega, i + 1, hlt, ?_, rfl, rfl⟩
    rw [hl.holds.chars i hlt, List.take_append_getElem hlt]

/-- Where a string has a place, its character there is that of the list, or the NUL behind it. -/
theorem StringIn.getD_eq {m : ℕ → UInt8} (hl : StringIn m a l) {i : ℕ} (hi : i ≤ l.length) :
    l.getD i 0 = m (a + i) := by
  rw [List.getD_eq_getElem?_getD]
  rcases Nat.lt_or_ge i l.length with hlt | hge
  · rw [List.getElem?_eq_getElem hlt, hl.holds.chars i hlt]
    rfl
  · rw [List.getElem?_eq_none hge, (hl.zero_iff hi).mpr (by omega)]
    rfl

theorem ends_strcmp (hl : StringIn s.memory a l) (hl' : StringIn s.memory b l') (hfuel : l.length < fuel) :
    Ends (ece391Strcmp fuel a b) s fun r s' => (r = 0 ↔ l = l') ∧ s' = s := by
  unfold ece391Strcmp
  -- the strings agree up to the place reached, which is in both
  refine ends_loop (I := fun k b' s' => s' = s ∧ ∃ i ≤ l.length, i ≤ l'.length ∧ l.take i = l'.take i ∧
    b' = (a + i, b + i) ∧ k = l.length - i) ?_
    ⟨rfl, 0, Nat.zero_le _, Nat.zero_le _, by rw [List.take_zero, List.take_zero], rfl, rfl⟩
      (show l.length - 0 < fuel from hfuel)
  rintro k _ t ⟨rfl, i, hi, hi', htake, rfl, rfl⟩
  simp only [ends_bind, ends_loadByte (hl.inside i hi), ends_loadByte (hl'.inside i hi')]
  by_cases heq : t.memory (a + i) = t.memory (b + i)
  · rw [if_pos heq]
    by_cases hzero : t.memory (a + i) = 0
    · have he := (hl.zero_iff hi).mp hzero
      have he' := (hl'.zero_iff hi').mp (heq ▸ hzero)
      rw [List.take_of_length_le (by omega), List.take_of_length_le (by omega)] at htake
      rw [if_pos hzero, ends_pure]
      exact ⟨iff_of_true rfl htake, rfl⟩
    · have hlt : i < l.length := by
        have := mt (hl.zero_iff hi).mpr hzero
        omega
      have hlt' : i < l'.length := by
        have := mt (hl'.zero_iff hi').mpr (heq ▸ hzero)
        omega
      rw [if_neg hzero, ends_pure]
      refine ⟨l.length - (i + 1), by omega, rfl, i + 1, hlt, hlt', ?_, rfl, rfl⟩
      rw [← List.take_append_getElem hlt, ← List.take_append_getElem hlt', htake, ← hl.holds.chars i hlt,
        ← hl'.holds.chars i hlt', heq]
  · rw [if_neg heq, ends_pure]
    refine ⟨iff_of_false ?_ ?_, rfl⟩
    · intro hx
      exact heq (UInt8.toNat_inj.mp (by omega))
    · rintro rfl
      exact heq ((hl.getD_eq hi).symm.trans (hl'.getD_eq hi'))

/-- **Comparing** at most `n` characters of two strings. -/
theorem ends_strncmp (hl : StringIn s.memory a l) (hl' : StringIn s.memory b l') {n : ℕ} (hn : 0 < n)
    (hfuel : n < fuel) :
    Ends (ece391Strncmp fuel a b n) s fun r s' => (r = 0 ↔ l.take n = l'.take n) ∧ s' = s := by
  unfold ece391Strncmp
  rw [if_neg (by omega)]
  -- the strings agree up to the place reached, which is in both
  refine ends_loop (I := fun k b' s' => s' = s ∧ ∃ i < n, i ≤ l.length ∧ i ≤ l'.length ∧ l.take i = l'.take i ∧
    b' = (a + i, b + i, n - i) ∧ k = n - i) ?_
    ⟨rfl, 0, hn, Nat.zero_le _, Nat.zero_le _, by rw [List.take_zero, List.take_zero], rfl, rfl⟩
      (show n - 0 < fuel from hfuel)
  rintro k _ t ⟨rfl, i, hin, hi, hi', htake, rfl, rfl⟩
  simp only [ends_bind, ends_loadByte (hl.inside i hi), ends_loadByte (hl'.inside i hi')]
  by_cases heq : t.memory (a + i) = t.memory (b + i)
  · rw [if_pos heq]
    by_cases hzero : t.memory (a + i) = 0
    · rw [if_pos (Or.inl hzero)]
      have he := (hl.zero_iff hi).mp hzero
      have he' := (hl'.zero_iff hi').mp (heq ▸ hzero)
      rw [List.take_of_length_le (by omega), List.take_of_length_le (by omega)] at htake
      simp only [ends_pure]
      exact ⟨iff_of_true rfl (by rw [htake]), rfl⟩
    · have hlt : i < l.length := by
        have := mt (hl.zero_iff hi).mpr hzero
        omega
      have hlt' : i < l'.length := by
        have := mt (hl'.zero_iff hi').mpr (heq ▸ hzero)
        omega
      have hnext : l.take (i + 1) = l'.take (i + 1) := by
        rw [← List.take_append_getElem hlt, ← List.take_append_getElem hlt', htake, ← hl.holds.chars i hlt,
          ← hl'.holds.chars i hlt', heq]
      by_cases hlast : n - i - 1 = 0
      · rw [if_pos (Or.inr hlast)]
        obtain rfl : n = i + 1 := by omega
        simp only [ends_pure]
        exact ⟨iff_of_true rfl hnext, rfl⟩
      · rw [if_neg (by rintro (hx | hx); exacts [hzero hx, hlast hx])]
        simp only [ends_pure]
        exact ⟨n - (i + 1), by omega, rfl, i + 1, by omega, hlt, hlt', hnext,
          by rw [Nat.sub_sub, Nat.add_assoc, Nat.add_assoc], rfl⟩
  · rw [if_neg heq]
    simp only [ends_pure]
    refine ⟨iff_of_false ?_ ?_, rfl⟩
    · intro hx
      exact heq (UInt8.toNat_inj.mp (by omega))
    · intro hx
      have hsame := congrArg (fun t : List UInt8 => (t[i]?).getD 0) hx
      simp only [List.getElem?_take, if_pos hin] at hsame
      rw [← List.getD_eq_getElem?_getD, ← List.getD_eq_getElem?_getD, hl.getD_eq hi, hl'.getD_eq hi'] at hsame
      exact heq hsame

end Specs

/-! ## The data of a program -/

def SameOutside (bufs : List (ℕ × ℕ)) (m m' : ℕ → UInt8) : Prop :=
  ∀ a, (∀ b ∈ bufs, a < b.1 ∨ b.1 + b.2 ≤ a) → m' a = m a

/-- The literals of a program stand where `lit` says, its buffers are in its page, and they are apart. -/
structure Layout (lit : List UInt8 → ℕ) (texts : List (List UInt8)) (bufs : List (ℕ × ℕ)) (m : ℕ → UInt8) : Prop where
  strings : ∀ l ∈ texts, StringIn m (lit l) l
  apart : ∀ l ∈ texts, ∀ b ∈ bufs, lit l + l.length < b.1 ∨ b.1 + b.2 ≤ lit l
  bufs : ∀ b ∈ bufs, ∀ i < b.2, InPage (b.1 + i)

section Layout
variable {lit : List UInt8 → ℕ} {texts : List (List UInt8)} {bufs : List (ℕ × ℕ)} {m m' m'' : ℕ → UInt8}
  {b : ℕ × ℕ} {a : ℕ}
  {bs : List UInt8}

theorem SameOutside.refl (m : ℕ → UInt8) : SameOutside bufs m m := fun _ _ => rfl

theorem SameOutside.trans (h₁ : SameOutside bufs m m') (h₂ : SameOutside bufs m' m'') : SameOutside bufs m m'' :=
  fun a ha => (h₂ a ha).trans (h₁ a ha)

theorem sameOutside_overlay (hb : b ∈ bufs) (hlo : b.1 ≤ a) (hhi : a + bs.length ≤ b.1 + b.2) :
    SameOutside bufs m (overlay m a bs) := by
  intro x hx
  rcases hx b hb with hlt | hge
  · exact overlay_of_lt _ _ (by omega)
  · exact overlay_of_ge _ _ (by omega)

theorem SameOutside.widen {bufs' : List (ℕ × ℕ)} (h : SameOutside bufs m m') (hsub : bufs ⊆ bufs') :
    SameOutside bufs' m m' :=
  fun a ha => h a fun b hb => ha b (hsub hb)

theorem StringIn.same {l : List UInt8} (h : StringIn m a l) (hm : SameOutside bufs m m')
    (hapart : ∀ b ∈ bufs, a + l.length < b.1 ∨ b.1 + b.2 ≤ a) : StringIn m' a l :=
  h.congr fun i hi => hm _ fun b hb => by
    have := hapart b hb
    omega

theorem Layout.congr (h : Layout lit texts bufs m) (hm : SameOutside bufs m m') : Layout lit texts bufs m' where
  strings l hl := (h.strings l hl).same hm (h.apart l hl)
  apart := h.apart
  bufs := h.bufs

theorem stringIn_overlay {l : List UInt8} (hl : 0 ∉ l) (hin : ∀ i ≤ l.length, InPage (a + i)) :
    StringIn (overlay m a (l ++ [0])) a l where
  holds := by
    refine ⟨fun j hj => ?_, ?_⟩
    · rw [overlay_at _ _ _ _ (by rw [List.length_append]; omega), List.getElem_append_left hj]
    · rw [overlay_at _ _ _ _ (by rw [List.length_append]; exact Nat.lt_succ_self _)]
      simp
  noNul := hl
  inside := hin

theorem stringIn_cut {i : ℕ} (hi : i ≤ bs.length) (hnul : 0 ∉ bs.take i) (hin : ∀ j ≤ i, InPage (a + j)) :
    StringIn (Function.update (overlay m a bs) (a + i) 0) a (bs.take i) where
  holds := by
    refine ⟨fun j hj => ?_, ?_⟩
    · rw [List.length_take] at hj
      rw [Function.update_of_ne (by omega), overlay_at _ _ _ _ (by omega), List.getElem_take]
    · rw [List.length_take, Nat.min_eq_left hi, Function.update_self]
  noNul := hnul
  inside j hj := by
    rw [List.length_take] at hj
    exact hin j (by omega)

theorem sameOutside_cut {i : ℕ} (hb : b ∈ bufs) (hlo : b.1 ≤ a) (hhi : a + bs.length ≤ b.1 + b.2) (hi : i < bs.length) :
    SameOutside bufs m (Function.update (overlay m a bs) (a + i) 0) := by
  refine (sameOutside_overlay hb hlo hhi).trans fun x hx => ?_
  have hout := hx b hb
  exact Function.update_of_ne (by omega) _ _

end Layout

end Kernel391
