import Mathlib.Data.Set.Insert
import Mathlib.Data.BitVec
import Mathlib.Order.Bounds.Basic

namespace ESPressioSecurity.Framework.SlidingWindow

variable {n : Nat}

/-- What a window of a given width admits once the numbers in `C` were seen. -/
def Admits (width : Nat) (C : Set Nat) (q : Nat) : Prop := q∉C ∧ ∀ c∈C,c<q+width

/-- `top` is the largest number seen, and bit `d` tells whether `top-d` was seen. -/
structure Tracks (top : Nat) (bits : BitVec n) (C : Set Nat) : Prop where
  top_mem : top∈C
  le_top : ∀ c∈C,c≤top
  bit : ∀ d,d<n → (bits.getLsbD d=true ↔ d≤top ∧ top-d∈C)

/-- The window moved up by `k` places, with the new top seen. -/
def advance (bits : BitVec n) (k : Nat) : BitVec n :=
  if n≤k then 1#n else (bits <<< k) ||| 1#n

def mark (bits : BitVec n) (d : Nat) : BitVec n := bits ||| (1#n <<< d)

theorem one_bit (d : Nat) (hd : d<n) : (1#n).getLsbD d=decide (d=0) := by
  rw [BitVec.getLsbD_one]
  by_cases h : d=0
  · subst h; simp [show 0<n by omega]
  · simp [h]

theorem mark_bit (bits : BitVec n) (k d : Nat) (hd : d<n) :
    (mark bits k).getLsbD d=(bits.getLsbD d || decide (d=k)) := by
  rw [mark,BitVec.getLsbD_or,BitVec.getLsbD_shiftLeft]
  by_cases hk : d<k
  · simp [hk,show d≠k by omega]
  · rw [one_bit _ (by omega)]
    simp [hd,hk,show d-k=0 ↔ d=k by omega]

theorem Tracks.start (q : Nat) : Tracks q (1#n) {q} := by
  refine ⟨rfl,fun c hc => le_of_eq hc,?_⟩
  intro d hd
  rw [one_bit d hd]
  simp only [decide_eq_true_eq,Set.mem_singleton_iff]
  omega

/-- Above the old top nothing was seen but the new top itself. -/
theorem Tracks.gap {top : Nat} {bits : BitVec n} {C : Set Nat} (h : Tracks top bits C) {q d : Nat}
    (hq : top<q) (hd : d<q-top) : d=0 ↔ d≤q ∧ (q-d=q ∨ q-d∈C) := by
  constructor
  · rintro rfl
    exact ⟨Nat.zero_le q,Or.inl (by omega)⟩
  · rintro ⟨hle,he|hc⟩
    · omega
    · have := h.le_top _ hc
      omega

theorem Tracks.advance {top : Nat} {bits : BitVec n} {C : Set Nat} (h : Tracks top bits C)
    {q : Nat} (hq : top<q) : Tracks q (advance bits (q-top)) (insert q C) := by
  refine ⟨Set.mem_insert q C,?_,?_⟩
  · intro c hc
    rcases Set.mem_insert_iff.mp hc with rfl|hc
    · exact le_refl _
    · exact (h.le_top c hc).trans hq.le
  · intro d hd
    rw [Set.mem_insert_iff,SlidingWindow.advance]
    split_ifs with hk
    · -- everything seen before has left the window
      rw [one_bit d hd,decide_eq_true_eq]
      exact h.gap hq (by omega)
    · rw [BitVec.getLsbD_or,BitVec.getLsbD_shiftLeft,one_bit d hd]
      by_cases hs : d<q-top
      · simp only [hd,hs,decide_true,Bool.not_true,Bool.and_false,Bool.false_and,
          Bool.false_or,decide_eq_true_eq]
        exact h.gap hq hs
      · have old := h.bit (d-(q-top)) (by omega)
        have hd0 : d≠0 := by omega
        simp only [hd,hs,hd0,decide_true,decide_false,Bool.not_false,Bool.and_true,
          Bool.true_and,Bool.or_false]
        rw [old]
        constructor
        · rintro ⟨hle,hc⟩
          refine ⟨by omega,Or.inr ?_⟩
          rwa [show q-d=top-(d-(q-top)) by omega]
        · rintro ⟨hle,he|hc⟩
          · omega
          · refine ⟨by omega,?_⟩
            rwa [show top-(d-(q-top))=q-d by omega]

theorem Tracks.mark {top : Nat} {bits : BitVec n} {C : Set Nat} (h : Tracks top bits C)
    {q : Nat} (hq : q≤top) :
    Tracks top (if top-q<n then mark bits (top-q) else bits) (insert q C) := by
  refine ⟨Set.mem_insert_of_mem q h.top_mem,?_,?_⟩
  · intro c hc
    rcases Set.mem_insert_iff.mp hc with rfl|hc
    · exact hq
    · exact h.le_top c hc
  · intro d hd
    have old := h.bit d hd
    rw [Set.mem_insert_iff]
    split_ifs with hk
    · rw [mark_bit _ _ _ hd,Bool.or_eq_true,old,decide_eq_true_eq]
      constructor
      · rintro (⟨hle,hc⟩|rfl)
        · exact ⟨hle,Or.inr hc⟩
        · exact ⟨by omega,Or.inl (by omega)⟩
      · rintro ⟨hle,he|hc⟩
        · exact Or.inr (by omega)
        · exact Or.inl ⟨hle,hc⟩
    · rw [old]
      constructor
      · rintro ⟨hle,hc⟩
        exact ⟨hle,Or.inr hc⟩
      · rintro ⟨hle,he|hc⟩
        · omega
        · exact ⟨hle,hc⟩

theorem Tracks.admits_above {top : Nat} {bits : BitVec n} {C : Set Nat} (h : Tracks top bits C)
    (width : Nat) {q : Nat} (hq : top<q) : Admits width C q := by
  constructor
  · intro hc
    have := h.le_top q hc
    omega
  · intro c hc
    have := h.le_top c hc
    omega

/-- The admission test on top and bits, for widths up to the number of bits kept. -/
theorem Tracks.admits {top : Nat} {bits : BitVec n} {C : Set Nat} (h : Tracks top bits C)
    (width : Nat) (hw : width≤n) (q : Nat) :
    Admits width C q ↔ top<q ∨ (top-q<width ∧ bits.getLsbD (top-q)=false) := by
  constructor
  · rintro ⟨fresh,near⟩
    by_cases hq : top<q
    · exact Or.inl hq
    · have hn := near top h.top_mem
      refine Or.inr ⟨by omega,?_⟩
      rw [← Bool.not_eq_true]
      intro hb
      have hc := ((h.bit (top-q) (by omega)).mp hb).2
      rw [show top-(top-q)=q by omega] at hc
      exact fresh hc
  · rintro (hq|⟨hd,hb⟩)
    · exact h.admits_above width hq
    · by_cases hq : top<q
      · exact h.admits_above width hq
      · refine ⟨fun hc => ?_,fun c hc => ?_⟩
        · have ht := (h.bit (top-q) (by omega)).mpr
            ⟨by omega,by rwa [show top-(top-q)=q by omega]⟩
          rw [hb] at ht
          exact absurd ht (by decide)
        · have := h.le_top c hc
          omega

theorem Tracks.greatest {top : Nat} {bits : BitVec n} {C : Set Nat} (h : Tracks top bits C) :
    IsGreatest C top :=
  ⟨h.top_mem,h.le_top⟩

/-- Only the largest number seen can be too far ahead. -/
theorem admits_greatest {C : Set Nat} {top : Nat} (h : IsGreatest C top) (width q : Nat) :
    Admits width C q ↔ q∉C ∧ top<q+width := by
  constructor
  · intro ⟨fresh,near⟩
    exact ⟨fresh,near top h.1⟩
  · intro ⟨fresh,near⟩
    refine ⟨fresh,?_⟩
    intro c hc
    exact lt_of_le_of_lt (h.2 hc) near

theorem admits_empty (width q : Nat) : Admits width ∅ q :=
  ⟨fun h => h,fun _ h => absurd h (fun h => h)⟩

/-! ### Windows of two widths -/

/-- `D` has all that `C` has, and what it has besides is too old for the window on `C`. -/
structure Outgrown (width : Nat) (C D : Set Nat) : Prop where
  subset : C⊆D
  old : ∀q∈D,q∉C → ∃ c∈C,q+width≤c

theorem outgrown_self (width : Nat) (C : Set Nat) : Outgrown width C C :=
  ⟨subset_refl C,fun _ h fresh => absurd h fresh⟩

/-- What the narrower window admits the wider one admits. -/
theorem Outgrown.admits {narrow wide : Nat} {C D : Set Nat} (h : Outgrown narrow C D)
    (wider : narrow≤wide) {q : Nat} (admitted : Admits narrow C q) : Admits wide D q := by
  obtain ⟨fresh,near⟩ := admitted
  constructor
  · intro hq
    obtain ⟨c,hc,far⟩ := h.old q hq fresh
    have := near c hc
    omega
  · intro d hd
    by_cases hC : d∈C
    · have := near d hC
      omega
    · obtain ⟨c,hc,far⟩ := h.old d hd hC
      have := near c hc
      omega

theorem Outgrown.both {width : Nat} {C D : Set Nat} (h : Outgrown width C D) (N : Set Nat) :
    Outgrown width (C∪N) (D∪N) := by
  refine ⟨Set.union_subset_union_left N h.subset,?_⟩
  intro q hq fresh
  rw [Set.mem_union,not_or] at fresh
  have inside := hq.resolve_right fresh.2
  obtain ⟨c,hc,far⟩ := h.old q inside fresh.1
  exact ⟨c,Or.inl hc,far⟩

theorem not_admits {width : Nat} {C : Set Nat} {q : Nat} (fresh : q∉C) :
    ¬Admits width C q ↔ ∃ c∈C,q+width≤c := by
  rw [Admits,not_and]
  constructor
  · intro refused
    have far := refused fresh
    push Not at far
    exact far
  · rintro ⟨c,hc,far⟩ _ near
    exact absurd (near c hc) (Nat.not_lt.mpr far)

/-- What only the wider window admits. -/
theorem Outgrown.more {width : Nat} {C D N : Set Nat} (h : Outgrown width C D)
    (refused : ∀q∈N,¬Admits width C q) : Outgrown width C (D∪N) := by
  refine ⟨h.subset.trans Set.subset_union_left,?_⟩
  intro q hq fresh
  rcases hq with hq|hq
  · exact h.old q hq fresh
  · exact (not_admits fresh).mp (refused q hq)

end ESPressioSecurity.Framework.SlidingWindow
