import Kernel391.User.Grep

/-! The buffer of `do_one_file` between two reads. Its lines are done up to the last newline and
the rest stands at the front, unless the file has ended or no newline is in sight. -/
namespace Kernel391
open Kernel391.Foundations
set_option autoImplicit false

/-- The terminator in place of the character at the end of a line. -/
def UserState.ended (t : UserState) (a : ℕ) : UserState := { t with memory := Function.update t.memory a 0 }

/-- The string of at most `n` characters at `a`, copied to `data`. -/
def UserState.copied (t : UserState) (data a n : ℕ) : UserState :=
  { t with memory := overlay t.memory data (window t.memory n a ++ [0]) }

namespace Grep

/-- Lines that fit into the buffer with their newline. -/
def ShortLines (text : List UInt8) : Prop := ∀ l ∈ text.splitOn 0x0A, l.length < 1024

/-- What the buffer held, whatever follows it in the file, was printed as `out` or is still there as `rest`. The
buffer is full unless nothing follows, and a read of nothing is the last. -/
structure Carried (pat fname : List UInt8) (cnt : ℤ) (buffer out rest : List UInt8) : Prop where
  noNul : 0 ∉ rest
  lines : ∀ text, (cnt = 0 → text = []) → (text ≠ [] → buffer.length = 1024) → ShortLines (buffer ++ text) →
    matchLines pat fname (buffer ++ text) = out ++ matchLines pat fname (rest ++ text) ∧ ShortLines (rest ++ text)

section Short
variable {line text : List UInt8}

theorem shortLines_cons (h : 0x0A ∉ line) : ShortLines (line ++ 0x0A :: text) ↔ line.length < 1024 ∧
    ShortLines text := by
  unfold ShortLines
  rw [List.splitOn_append_cons_self_of_not_mem h, List.forall_mem_cons]

theorem shortLines_nil : ShortLines [] := by
  intro l hl
  rw [List.splitOn_nil, List.mem_singleton] at hl
  rw [hl]
  decide

theorem shortLines_first (h : 0x0A ∉ line) (hs : ShortLines (line ++ text)) : line.length < 1024 := by
  by_cases htext : 0x0A ∈ text
  · obtain ⟨a, b, rfl, ha⟩ := List.eq_append_cons_of_mem htext
    have hfirst : (0x0A : UInt8) ∉ line ++ a := fun hx => (List.mem_append.mp hx).elim h ha
    rw [← List.append_assoc, shortLines_cons hfirst, List.length_append] at hs
    omega
  · have hall : (0x0A : UInt8) ∉ line ++ text := fun hx => (List.mem_append.mp hx).elim h htext
    have hlen := hs (line ++ text) (by rw [List.splitOn_eq_singleton hall]; exact List.mem_singleton_self _)
    rw [List.length_append] at hlen
    omega

end Short

section Buffer
variable {h : Host} {p : ℕ} {lit : List UInt8 → ℕ} {data fuel last sA fA : ℕ} {t t' : UserState}
  {pat fname buffer out : List UInt8}
  {cnt : ℤ} {lineStart : ℕ}

theorem chunk_congr {m m' : ℕ → UInt8} {a n : ℕ} (hm : ∀ j < n, m' (a + j) = m (a + j)) :
    chunk m' a n = chunk m a n := by
  unfold chunk
  exact List.map_congr_left fun j hj => hm j (List.mem_range.mp hj)

theorem chunk_drop {m : ℕ → UInt8} {a n i : ℕ} (hi : i ≤ n) : (chunk m a n).drop i = chunk m (a + i) (n - i) := by
  rw [show chunk m a n = chunk m a i ++ chunk m (a + i) (n - i) by rw [← chunk_add, Nat.add_sub_cancel' hi],
    List.drop_left' (chunk_length _ _ _)]

/-- The lines in front of `lineStart` are done, and the rest stands where it stood. -/
structure UpTo (p data last fuel sA fA : ℕ) (lit : List UInt8 → ℕ) (pat fname : List UInt8)
    (t : UserState) (lineStart : ℕ)
    (t' : UserState) (out : List UInt8) : Prop where
  running : t'.Running p
  belongings : t'.belongings = t.belongings
  outside : SameOutside [(data, 1025)] t.memory t'.memory
  spare : t'.memory (data + 1024) ≠ 0x0A
  printed : t'.printed = t.printed ++ out
  place : lineStart ≤ last ∧ (lineStart = 0 ∨ lineStart < last)
  rest : chunk t'.memory (data + lineStart) (last - lineStart) = (chunk t.memory data last).drop lineStart
  lines : ∀ text, matchLines pat fname (chunk t.memory data last ++ text) =
      out ++ matchLines pat fname ((chunk t.memory data last).drop lineStart ++ text) ∧
    (ShortLines (chunk t.memory data last ++ text) → ShortLines ((chunk t.memory data last).drop lineStart ++ text))

structure Searched (p data last : ℕ) (pat fname : List UInt8) (cnt : ℤ) (t : UserState) (last' : ℕ) (t' : UserState)
    (out : List UInt8) : Prop where
  running : t'.Running p
  belongings : t'.belongings = t.belongings
  outside : SameOutside [(data, 1025)] t.memory t'.memory
  spare : t'.memory (data + 1024) ≠ 0x0A
  printed : t'.printed = t.printed ++ out
  lt : last' < 1024
  ended : cnt = 0 → last' = 0
  carried : 0 ∉ chunk t.memory data last → Carried pat fname cnt (chunk t.memory data last) out
    (chunk t'.memory data last')

theorem sameOutside_update {m : ℕ → UInt8} {i : ℕ} (hi : i ≤ 1024) (c : UInt8) :
    SameOutside [(data, 1025)] m (Function.update m (data + i) c) := by
  rw [← overlay_single]
  refine sameOutside_overlay (List.mem_singleton_self _) (Nat.le_add_right _ _) ?_
  show data + i + 1 ≤ data + 1025
  omega

theorem ended_running (a : ℕ) (hs : t.Running p) : (t.ended a).Running p := ⟨hs.serves, hs.stdin, hs.stdout⟩

theorem ended_other {a b : ℕ} (h : b ≠ a) : (t.ended a).memory b = t.memory b := Function.update_of_ne h _ _

theorem UpTo.next {t₁ t₂ : UserState} {e : ℕ} (hup : UpTo p data last fuel sA fA lit pat fname t lineStart t₁ out)
    (hlast : last ≤ 1024)
    (hle : lineStart ≤ e) (he : e < last) (hnone : 0x0A ∉ chunk t₁.memory (data + lineStart) (e - lineStart))
    (hend : t₁.memory (data + e) = 0x0A)
    (hprints : Prints p (t₁.ended (data + e)) t₂
      (matchLine pat fname (chunk t₁.memory (data + lineStart) (e - lineStart)))) :
    t₂.Running p ∧ t₂.belongings = t.belongings ∧ SameOutside [(data, 1025)] t.memory t₂.memory ∧
      t₂.memory (data + 1024) ≠ 0x0A ∧
      t₂.printed = t.printed ++ (out ++ matchLine pat fname (chunk t₁.memory (data + lineStart) (e - lineStart))) ∧
      chunk t₂.memory (data + (e + 1)) (last - (e + 1)) = (chunk t.memory data last).drop (e + 1) ∧
      ∀ text, matchLines pat fname (chunk t.memory data last ++ text) =
          (out ++ matchLine pat fname (chunk t₁.memory (data + lineStart) (e - lineStart))) ++
            matchLines pat fname ((chunk t.memory data last).drop (e + 1) ++ text) ∧
        (ShortLines (chunk t.memory data last ++ text) →
          ShortLines ((chunk t.memory data last).drop (e + 1) ++ text)) := by
  have hrest : (chunk t.memory data last).drop lineStart =
      chunk t₁.memory (data + lineStart) (e - lineStart) ++ 0x0A :: (chunk t.memory data last).drop (e + 1) := by
    have hone : chunk t₁.memory (data + e) 1 = [0x0A] := by
      show [t₁.memory (data + e + 0)] = [0x0A]
      rw [Nat.add_zero, hend]
    have hdrop : chunk t₁.memory (data + (e + 1)) (last - (e + 1)) = (chunk t.memory data last).drop (e + 1) := by
      rw [show e + 1 = lineStart + (e + 1 - lineStart) by omega, ← List.drop_drop, ← hup.rest, chunk_drop (by omega)]
      congr 1
      · omega
      · omega
    rw [← hup.rest, ← hdrop, show last - lineStart = (e - lineStart) + (1 + (last - (e + 1))) by omega,
      chunk_add, chunk_add,
      show data + lineStart + (e - lineStart) = data + e by omega, hone]
    rfl
  refine ⟨hprints.running, hprints.belongings.trans hup.belongings, ?_, ?_, ?_, ?_, fun text => ?_⟩
  · rw [hprints.memory]
    exact hup.outside.trans (sameOutside_update (by omega) 0)
  · rw [hprints.memory, ended_other (by omega)]
    exact hup.spare
  · rw [hprints.printed, ← List.append_assoc, ← hup.printed]
    rfl
  · rw [show e + 1 = lineStart + (e + 1 - lineStart) by omega, ← List.drop_drop, ← hup.rest,
      chunk_drop (by omega), hprints.memory]
    rw [show data + (lineStart + (e + 1 - lineStart)) = data + lineStart + (e + 1 - lineStart) by omega,
      show last - (lineStart + (e + 1 - lineStart)) = last - lineStart - (e + 1 - lineStart) by omega]
    exact chunk_congr fun j _ => ended_other (by omega)
  · obtain ⟨hlines, hshort⟩ := hup.lines text
    rw [hrest, List.append_assoc, List.cons_append] at hlines hshort
    rw [matchLines_cons hnone] at hlines
    exact ⟨by rw [hlines, List.append_assoc], fun hx => ((shortLines_cons hnone).mp (hshort hx)).2⟩

/-- **The last line of a buffer**, when it is searched: nothing of the file follows it. -/
theorem UpTo.searched {t₁ t₂ : UserState} {c : UInt8}
    (hup : UpTo p data last fuel sA fA lit pat fname t lineStart t₁ out)
    (hpat : pat ≠ []) (hlast : last ≤ 1024) (hnone : 0x0A ∉ chunk t₁.memory (data + lineStart) (last - lineStart))
    (hc : t₁.memory (data + last) = c) (hstay : ¬ (c ≠ 0x0A ∧ cnt ≠ 0 ∧ lineStart ≠ 0))
    (hprints : Prints p (t₁.ended (data + last)) t₂
      (matchLine pat fname (chunk t₁.memory (data + lineStart) (last - lineStart)))) :
    Searched p data last pat fname cnt t 0 t₂
      (out ++ matchLine pat fname (chunk t₁.memory (data + lineStart) (last - lineStart))) := by
  refine ⟨hprints.running, hprints.belongings.trans hup.belongings, ?_, ?_, ?_, by decide, fun _ => rfl,
    fun _ => ⟨?_, ?_⟩⟩
  · rw [hprints.memory]
    exact hup.outside.trans (sameOutside_update hlast 0)
  · rw [hprints.memory]
    by_cases hfull : last = 1024
    · rw [hfull]
      unfold UserState.ended
      simp
    · rw [ended_other (by omega)]
      exact hup.spare
  · rw [hprints.printed, ← List.append_assoc, ← hup.printed]
    rfl
  · exact List.not_mem_nil
  · intro text hcnt hfull hshort
    obtain ⟨hlines, hshort'⟩ := hup.lines text
    have hend : text = [] := by
      by_contra hne
      have hlen := hfull hne
      rw [chunk_length] at hlen
      subst hlen
      have hc' : c ≠ 0x0A := hc ▸ hup.spare
      obtain rfl : lineStart = 0 := by
        by_contra hstart
        exact hstay ⟨hc', fun hx => hne (hcnt hx), hstart⟩
      have hlong := @shortLines_first _ text hnone (by
        rw [hup.rest]
        exact hshort' hshort)
      rw [chunk_length] at hlong
      omega
    subst hend
    have hempty : matchLines pat fname [] = [] := (matchLines_single List.not_mem_nil).trans (matchLine_nil hpat)
    refine ⟨?_, shortLines_nil⟩
    show matchLines pat fname (chunk t.memory data last ++ []) = _ ++ matchLines pat fname ([] ++ [])
    rw [hlines, ← hup.rest, List.append_nil, matchLines_single hnone, List.append_nil, hempty, List.append_nil]

/-- **The last line of a buffer**, when it is kept for the next read. -/
theorem UpTo.moved {t₁ : UserState} (hup : UpTo p data last fuel sA fA lit pat fname t lineStart t₁ out)
    (hlast : last ≤ 1024)
    (hstart : lineStart ≠ 0) (hcnt : cnt ≠ 0) :
    Searched p data last pat fname cnt t (last - lineStart)
      ((t₁.ended (data + last)).copied data (data + lineStart) (last - lineStart)) out := by
  have hplace := hup.place.1
  have hlen := @window_length_le (t₁.ended (data + last)).memory (last - lineStart) (data + lineStart)
  refine ⟨⟨hup.running.serves, hup.running.stdin, hup.running.stdout⟩, hup.belongings, ?_, ?_, hup.printed, by omega,
    fun hx => absurd hx hcnt,
    fun hnul => ?_⟩
  · refine (hup.outside.trans (sameOutside_update hlast 0)).trans
      (sameOutside_overlay (List.mem_singleton_self _) (Nat.le_refl _) ?_)
    rw [List.length_append, List.length_singleton]
    show data + _ ≤ data + 1025
    omega
  · show overlay _ _ _ _ ≠ _
    rw [overlay_of_ge _ _ (by rw [List.length_append, List.length_singleton]; omega)]
    by_cases hfull : last = 1024
    · rw [hfull]
      unfold UserState.ended
      simp
    · rw [ended_other (by omega)]
      exact hup.spare
  · -- without a NUL the whole rest is copied
    have hsame : chunk (t₁.ended (data + last)).memory (data + lineStart) (last - lineStart) =
        (chunk t.memory data last).drop lineStart := by
      rw [← hup.rest]
      exact chunk_congr fun j hj => ended_other (by omega)
    have hnone : 0 ∉ (chunk t.memory data last).drop lineStart := fun hx => hnul (List.mem_of_mem_drop hx)
    have hwindow : window (t₁.ended (data + last)).memory (last - lineStart) (data + lineStart) =
      (chunk t.memory data last).drop lineStart := by
      show (chunk (t₁.ended (data + last)).memory (data + lineStart) (last - lineStart)).takeWhile (· ≠ 0) = _
      rw [hsame, List.takeWhile_eq_self_iff]
      exact fun c hc => decide_eq_true fun hx => hnone (hx ▸ hc)
    have hrest : chunk ((t₁.ended (data + last)).copied data (data + lineStart) (last - lineStart)).memory data
      (last - lineStart) =
        (chunk t.memory data last).drop lineStart := by
      unfold UserState.copied
      simp only
      rw [hwindow, overlay_append]
      have hdrop : ((chunk t.memory data last).drop lineStart).length = last - lineStart := by
        rw [List.length_drop, chunk_length]
      rw [chunk_congr (m := overlay (t₁.ended (data + last)).memory data ((chunk t.memory data last).drop lineStart))
        fun j hj => overlay_of_lt _ _ (by omega)]
      conv_lhs => rw [← hdrop]
      exact chunk_overlay_self _ _ _
    refine ⟨by rw [hrest]; exact hnone, fun text _ _ hshort => ?_⟩
    obtain ⟨hlines, hshort'⟩ := hup.lines text
    rw [hrest]
    exact ⟨hlines, hshort' hshort⟩

theorem ends_searchBuffer (hs : t.Running p) (hsp : h.Spares p) (hin : ∀ i ≤ 1024, InPage (data + i))
    (hlast : last ≤ 1024)
    (hstr : ∀ m', SameOutside [(data, 1025)] t.memory m' → Search lit sA fA fuel pat fname m')
    (hspare : t.memory (data + 1024) ≠ 0x0A) :
    Ends (searchBuffer h lit data fuel sA pat.length fA cnt last) t fun last' t' =>
      ∃ out, Searched p data last pat fname cnt t last' t' out := by
  have hstr₀ := hstr t.memory (SameOutside.refl _)
  have hrounds := hstr₀.rounds
  refine ends_loop (I := fun n lineStart t₁ => n = last - lineStart ∧
    ∃ out, UpTo p data last fuel sA fA lit pat fname t lineStart t₁ out) ?_
    ⟨rfl, [], hs, rfl, SameOutside.refl _, hspare, (List.append_nil _).symm, ⟨Nat.zero_le _, Or.inl rfl⟩, rfl,
      fun text => ⟨rfl, id⟩⟩
    (show last - 0 < fuel by omega)
  rintro n lineStart t₁ ⟨rfl, out, hup⟩
  refine (ends_lineEnd hin hlast hup.place.1 hrounds).bind ?_
  rintro e t₂ ⟨rfl, hlo, hhi, hnone, hnewline⟩
  rw [ends_bind, ends_loadByte (hin e (by omega))]
  have hsearch : Ends (searchLine h lit data fuel sA pat.length fA lineStart e) (t₂.ended (data + e)) fun _ t' =>
      Prints p (t₂.ended (data + e)) t' (matchLine pat fname (chunk t₂.memory (data + lineStart) (e - lineStart))) := by
    have hline : chunk (t₂.ended (data + e)).memory (data + lineStart) (e - lineStart) =
        chunk t₂.memory (data + lineStart) (e - lineStart) := chunk_congr fun j hj => ended_other (by omega)
    rw [← hline]
    exact ends_searchLine (ended_running _ hup.running) hsp
      (hstr _ (hup.outside.trans (sameOutside_update (by omega) 0))) hin hlo
      (by omega) (Function.update_self _ _ _)
  by_cases hkeep : t₂.memory (data + e) ≠ 0x0A ∧ cnt ≠ 0 ∧ lineStart ≠ 0
  · obtain rfl : e = last := by
      by_contra hne
      exact hkeep.1 (hnewline (by omega))
    rw [if_pos hkeep, ends_bind, ends_storeByte (hin e hlast)]
    have hstring : StringIn (t₂.ended (data + e)).memory (data + lineStart)
        (window (t₂.ended (data + e)).memory (e - lineStart) (data + lineStart)) := by
      refine stringIn_window ?_ fun i hi => ?_
      · rw [show data + lineStart + (e - lineStart) = data + e by omega]
        exact Function.update_self _ _ _
      · rw [Nat.add_assoc]
        exact hin _ (by omega)
    have hlen := @window_length_le (t₂.ended (data + e)).memory (e - lineStart) (data + lineStart)
    refine (ends_strcpy hstring (Nat.le_add_right _ _) (hin 0 (by omega)) (by omega)).bind ?_
    rintro _ t₃ rfl
    rw [ends_pure]
    exact ⟨out, hup.moved hlast hkeep.2.2 hkeep.2.1⟩
  · rw [if_neg hkeep, ends_bind, ends_storeByte (hin e (by omega))]
    refine hsearch.bind ?_
    rintro _ t₃ hprints
    rcases Nat.lt_or_eq_of_le hhi with hlt | rfl
    · obtain ⟨hrun, hbel, hout, hspare', hprinted, hrest, hlines⟩ := hup.next hlast hlo hlt hnone (hnewline hlt) hprints
      by_cases hend : e + 1 ≥ last
      · rw [if_pos hend, ends_pure]
        have hnil : (chunk t.memory data last).drop (e + 1) = [] := by
          rw [← hrest, show last - (e + 1) = 0 by omega]
          rfl
        rw [hnil] at hlines
        exact ⟨_, hrun, hbel, hout, hspare', hprinted, by decide, fun _ => rfl,
          fun _ => ⟨List.not_mem_nil, fun text _ _ hx => ⟨(hlines text).1, (hlines text).2 hx⟩⟩⟩
      · rw [if_neg hend, ends_pure]
        exact ⟨last - (e + 1), by omega, rfl, _, hrun, hbel, hout, hspare', hprinted,
          ⟨by omega, Or.inr (by omega)⟩, hrest, hlines⟩
    · rw [if_pos (Nat.le_succ _), ends_pure]
      exact ⟨_, hup.searched hstr₀.nonempty hlast hnone rfl hkeep hprints⟩

end Buffer

end Grep

end Kernel391
