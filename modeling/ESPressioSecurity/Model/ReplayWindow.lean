import ESPressioSecurity.Framework.KeyedTable
import ESPressioSecurity.Framework.SlidingWindow

namespace ESPressioSecurity

open Framework

/-- The identity that `ReplayWindow` keeps one history for. -/
structure ReplayDomain where
  senderID : UInt64
  keyID : UInt32
  sessionID : UInt64
  deriving DecidableEq,Repr

namespace ReplayWindow

structure State where
  domain : ReplayDomain
  highest : UInt64
  bitmap : UInt64
  deriving DecidableEq,Repr

end ReplayWindow

/-- `ReplayWindow`: the clamp of its constructor and the single entry of each domain are fields. -/
structure ReplayWindow where
  windowSize : Nat
  states : List ReplayWindow.State
  size_pos : 1≤windowSize
  size_le : windowSize≤64
  distinct : KeyedTable.Distinct ReplayWindow.State.domain states

namespace ReplayWindow

/-- The constructor's `max(1, min(64, windowSize))`. -/
def clamp (windowSize : Nat) : Nat := max 1 (min 64 windowSize)

theorem clamp_mono {n m : Nat} (h : n ≤ m) : clamp n ≤ clamp m :=
  max_le_max (le_refl 1) (min_le_min (le_refl 64) h)

def new (windowSize : Nat) : ReplayWindow where
  windowSize := clamp windowSize
  states := []
  size_pos := le_max_left _ _
  size_le := max_le (by decide) (min_le_left _ _)
  distinct := List.nodup_nil

def find (w : ReplayWindow) (d : ReplayDomain) : Option State :=
  KeyedTable.lookup State.domain d w.states

def wouldAccept (w : ReplayWindow) (d : ReplayDomain) (sequence : UInt64) : Bool :=
  if d.sessionID=0 ∨ sequence=0 then false
  else match w.find d with
  | none => true
  | some state =>
    if sequence>state.highest then true
    else
      let delta := state.highest-sequence
      if delta.toNat≥w.windowSize then false
      else (state.bitmap &&& (1 <<< delta))=0

/-- The update `Commit` makes to the state it found. -/
def State.commit (state : State) (sequence : UInt64) : State :=
  if sequence>state.highest then
    let shift := sequence-state.highest
    {state with
      bitmap := if shift≥64 then 1 else (state.bitmap <<< shift) ||| 1
      highest := sequence}
  else
    let delta := state.highest-sequence
    if delta<64 then {state with bitmap := state.bitmap ||| (1 <<< delta)} else state

theorem State.commit_domain (state : State) (sequence : UInt64) :
    (state.commit sequence).domain=state.domain := by
  unfold State.commit
  dsimp only
  split_ifs <;> rfl

def modify (w : ReplayWindow) (d : ReplayDomain) (sequence : UInt64) : ReplayWindow where
  windowSize := w.windowSize
  states := KeyedTable.modify State.domain d (fun s => s.commit sequence) w.states
  size_pos := w.size_pos
  size_le := w.size_le
  distinct := by
    rw [KeyedTable.Distinct,KeyedTable.modify_keys _ _ _ (fun s => s.commit_domain sequence)]
    exact w.distinct

def push (w : ReplayWindow) (state : State) (h : w.find state.domain=none) : ReplayWindow where
  windowSize := w.windowSize
  states := w.states++[state]
  size_pos := w.size_pos
  size_le := w.size_le
  distinct := KeyedTable.distinct_push _ w.distinct h

def commit (w : ReplayWindow) (d : ReplayDomain) (sequence : UInt64) : ReplayWindow :=
  if h : w.find d=none then w.push ⟨d,sequence,1⟩ h else w.modify d sequence

def reset (w : ReplayWindow) : ReplayWindow where
  windowSize := w.windowSize
  states := []
  size_pos := w.size_pos
  size_le := w.size_le
  distinct := List.nodup_nil

/-- The window after what a response says was committed, if anything. -/
def record (w : ReplayWindow) : Option (ReplayDomain×UInt64) → ReplayWindow
  | none => w
  | some (d,sequence) => w.commit d sequence

@[simp] theorem new_windowSize (n : Nat) : (new n).windowSize=clamp n := rfl

@[simp] theorem commit_windowSize (w : ReplayWindow) (d : ReplayDomain) (q : UInt64) :
    (w.commit d q).windowSize=w.windowSize := by
  unfold commit
  split_ifs <;> rfl

@[simp] theorem record_windowSize (w : ReplayWindow) (c : Option (ReplayDomain×UInt64)) :
    (w.record c).windowSize=w.windowSize := by
  cases c with
  | none => rfl
  | some dq => exact commit_windowSize w dq.1 dq.2

theorem find_commit (w : ReplayWindow) (d e : ReplayDomain) (q : UInt64) :
    (w.commit d q).find e=
      if e=d then some (((w.find d).map (fun s => s.commit q)).getD ⟨d,q,1⟩) else w.find e := by
  unfold commit
  split_ifs with h he he
  · subst he
    have hp := KeyedTable.lookup_push State.domain e w.states ⟨e,q,1⟩
    change (w.push ⟨e,q,1⟩ h).find e=(w.find e).or _ at hp
    rw [hp,h]
    simp
  · have hp := KeyedTable.lookup_push State.domain e w.states ⟨d,q,1⟩
    change (w.push ⟨d,q,1⟩ h).find e=(w.find e).or _ at hp
    have ne : State.domain ⟨d,q,1⟩≠e := Ne.symm he
    rw [hp,if_neg ne,Option.or_none]
  · subst he
    have hm := KeyedTable.lookup_modify State.domain e e (fun s => s.commit q)
      (fun s => s.commit_domain q) w.states
    change (w.modify e q).find e=_ at hm
    rw [hm,if_pos rfl]
    show (w.find e).map (fun s => s.commit q)=_
    cases hf : w.find e with
    | none => exact absurd hf h
    | some s => rfl
  · have hm := KeyedTable.lookup_modify State.domain e d (fun s => s.commit q)
      (fun s => s.commit_domain q) w.states
    exact hm.trans (if_neg he)

/-! ### The window as a set of committed sequences -/

/-- The replay state of domain `d` stands for the set `C` of sequences committed for it. -/
def Committed (w : ReplayWindow) (d : ReplayDomain) (C : Set Nat) : Prop :=
  match w.find d with
  | none => C=∅
  | some s => SlidingWindow.Tracks s.highest.toNat s.bitmap.toBitVec C

theorem committed_new (n : Nat) (d : ReplayDomain) : (new n).Committed d ∅ := rfl

theorem shift_bits (b s : UInt64) (hs : s.toNat<64) :
    (b <<< s).toBitVec=b.toBitVec <<< s.toNat := by
  rw [UInt64.toBitVec_shiftLeft]
  have hm : (s.toBitVec%64).toNat=s.toNat := by
    show s.toNat%64=s.toNat
    exact Nat.mod_eq_of_lt hs
  rw [BitVec.shiftLeft_eq',hm]

/-- One `Commit` on the state of a domain adds the sequence to the set it stands for. -/
theorem State.commit_tracks (s : State) (q : UInt64) (C : Set Nat)
    (h : SlidingWindow.Tracks s.highest.toNat s.bitmap.toBitVec C) :
    SlidingWindow.Tracks (s.commit q).highest.toNat (s.commit q).bitmap.toBitVec
      (insert q.toNat C) := by
  unfold State.commit
  dsimp only
  split_ifs with hq hk hd
  · have hlt : s.highest.toNat<q.toNat := UInt64.lt_iff_toNat_lt.mp hq
    have hsub := UInt64.toNat_sub_of_le q s.highest (UInt64.le_of_lt hq)
    have hn : 64≤(q-s.highest).toNat := UInt64.le_iff_toNat_le.mp hk
    have step := h.advance hlt
    rw [SlidingWindow.advance,if_pos (by omega)] at step
    exact step
  · have hlt : s.highest.toNat<q.toNat := UInt64.lt_iff_toNat_lt.mp hq
    have hsub := UInt64.toNat_sub_of_le q s.highest (UInt64.le_of_lt hq)
    have hn : (q-s.highest).toNat<64 := UInt64.lt_iff_toNat_lt.mp (UInt64.not_le.mp hk)
    have step := h.advance hlt
    rw [SlidingWindow.advance,if_neg (by omega)] at step
    dsimp only
    rw [UInt64.toBitVec_or,shift_bits _ _ hn,hsub]
    exact step
  · have hle : q ≤ s.highest := UInt64.not_lt.mp hq
    have hn : (s.highest-q).toNat<64 := UInt64.lt_iff_toNat_lt.mp hd
    have hsub := UInt64.toNat_sub_of_le s.highest q hle
    have step := h.mark (UInt64.le_iff_toNat_le.mp hle)
    rw [if_pos (by omega)] at step
    dsimp only
    rw [UInt64.toBitVec_or,shift_bits _ _ hn,hsub]
    exact step
  · have hle : q ≤ s.highest := UInt64.not_lt.mp hq
    have hn : ¬(s.highest-q).toNat<64 := fun hh => hd (UInt64.lt_iff_toNat_lt.mpr hh)
    have hsub := UInt64.toNat_sub_of_le s.highest q hle
    have step := h.mark (UInt64.le_iff_toNat_le.mp hle)
    rw [if_neg (by omega)] at step
    exact step

theorem Committed.cases {w : ReplayWindow} {d : ReplayDomain} {C : Set Nat}
    (h : w.Committed d C) : (w.find d=none ∧ C=∅) ∨
    ∃ s,w.find d=some s ∧ SlidingWindow.Tracks s.highest.toNat s.bitmap.toBitVec C := by
  unfold Committed at h
  cases hf : w.find d with
  | none =>
    rw [hf] at h
    exact Or.inl ⟨rfl,h⟩
  | some s =>
    rw [hf] at h
    exact Or.inr ⟨s,rfl,h⟩

theorem committed_commit (w : ReplayWindow) (d : ReplayDomain) (q : UInt64) (C : Set Nat)
    (h : w.Committed d C) : (w.commit d q).Committed d (insert q.toNat C) := by
  unfold Committed
  rw [find_commit,if_pos rfl]
  obtain ⟨hf,rfl⟩|⟨s,hf,tracks⟩ := h.cases
  · rw [hf]
    simpa using SlidingWindow.Tracks.start (n := 64) q.toNat
  · rw [hf]
    exact s.commit_tracks q C tracks

theorem committed_commit_ne (w : ReplayWindow) (d e : ReplayDomain) (q : UInt64) (C : Set Nat)
    (hne : e≠d) (h : w.Committed e C) : (w.commit d q).Committed e C := by
  unfold Committed at h ⊢
  rw [find_commit,if_neg hne]
  exact h

/-- Testing the bitmap by a shifted one is reading its bit. -/
theorem bitmap_test (b delta : UInt64) (hd : delta.toNat<64) :
    (b &&& (1 <<< delta))=0 ↔ b.toBitVec.getLsbD delta.toNat=false := by
  have hone : ((1 : UInt64) <<< delta).toBitVec=1#64 <<< delta.toNat := shift_bits 1 delta hd
  rw [← UInt64.toBitVec_inj,UInt64.toBitVec_and,hone]
  constructor
  · intro h
    have hb := congrArg (fun x : BitVec 64 => x.getLsbD delta.toNat) h
    simpa [BitVec.getLsbD_and,BitVec.getLsbD_shiftLeft,hd] using hb
  · intro h
    apply BitVec.eq_of_getLsbD_eq
    intro i hi
    rw [BitVec.getLsbD_and,BitVec.getLsbD_shiftLeft]
    by_cases he : i=delta.toNat
    · subst he; simp [h]
    · by_cases hl : i<delta.toNat
      · simp [hl]
      · rw [SlidingWindow.one_bit _ (by omega)]
        simp [show i-delta.toNat≠0 by omega]

/-- `WouldAccept` answers for the committed set: the identifiers are non-zero, the sequence is not
in the set and lies less than the window size below its largest member. -/
theorem wouldAccept_iff (w : ReplayWindow) (d : ReplayDomain) (q : UInt64) (C : Set Nat)
    (h : w.Committed d C) :
    w.wouldAccept d q=true ↔
      d.sessionID≠0 ∧ q≠0 ∧ SlidingWindow.Admits w.windowSize C q.toNat := by
  have hle := w.size_le
  unfold wouldAccept
  by_cases hz : d.sessionID=0 ∨ q=0
  · rw [if_pos hz]
    constructor
    · intro hf
      exact absurd hf (by decide)
    · intro ⟨hs,hq,_⟩
      exact (hz.elim hs hq).elim
  · rw [if_neg hz]
    have hnz : d.sessionID≠0 ∧ q≠0 := not_or.mp hz
    obtain ⟨hf,rfl⟩|⟨s,hf,tracks⟩ := h.cases
    · rw [hf]
      simp [hnz.1,hnz.2,SlidingWindow.admits_empty]
    · rw [hf]
      have ha := tracks.admits w.windowSize hle q.toNat
      rw [ha]
      simp only [hnz.1,hnz.2,ne_eq,not_false_eq_true,true_and]
      by_cases hq : q>s.highest
      · rw [if_pos hq]
        exact iff_of_true rfl (Or.inl (UInt64.lt_iff_toNat_lt.mp hq))
      · have hqle : q ≤ s.highest := UInt64.not_lt.mp hq
        have hn : ¬s.highest.toNat<q.toNat := fun hh => hq (UInt64.lt_iff_toNat_lt.mpr hh)
        have hsub := UInt64.toNat_sub_of_le s.highest q hqle
        rw [if_neg hq]
        simp only [hn,false_or,hsub]
        by_cases hd : s.highest.toNat-q.toNat≥w.windowSize
        · rw [if_pos hd]
          constructor
          · intro hh
            exact absurd hh (by decide)
          · intro hh
            omega
        · have hlt : (s.highest-q).toNat<64 := by omega
          rw [if_neg hd,decide_eq_true_iff,bitmap_test _ _ hlt,hsub]
          constructor
          · intro hb
            exact ⟨by omega,hb⟩
          · intro hb
            exact hb.2

end ReplayWindow
end ESPressioSecurity
