import ESPressioSecurity.Model.ReplayWindow

namespace ESPressioSecurity

open Framework

namespace ReplayWindow

/-- The calls that change a replay window. -/
inductive Call
  | commit (d : ReplayDomain) (sequence : UInt64)
  | reset

def apply (w : ReplayWindow) : Call → ReplayWindow
  | .commit d sequence => w.commit d sequence
  | .reset => w.reset

def run (w : ReplayWindow) (calls : List Call) : ReplayWindow := calls.foldl apply w

/-- What a window stands for after some calls: for each domain the set of sequences that were
committed for it since the last `Reset`. -/
def history (calls : List Call) : ReplayDomain → Set Nat :=
  calls.foldl (fun C call => match call with
    | .commit d sequence => fun e => if e=d then insert sequence.toNat (C e) else C e
    | .reset => fun _ => ∅) (fun _ => ∅)

theorem history_commit (calls : List Call) (d e : ReplayDomain) (q : UInt64) :
    history (calls++[.commit d q]) e=
      if e=d then insert q.toNat (history calls e) else history calls e := by
  rw [history,List.foldl_append]
  rfl

theorem history_reset (calls : List Call) (d : ReplayDomain) :
    history (calls++[.reset]) d=∅ := by
  rw [history,List.foldl_append]
  rfl

theorem run_snoc (w : ReplayWindow) (calls : List Call) (call : Call) :
    w.run (calls++[call])=(w.run calls).apply call :=
  List.foldl_append

theorem run_windowSize (w : ReplayWindow) (calls : List Call) :
    (w.run calls).windowSize=w.windowSize := by
  induction calls generalizing w with
  | nil => rfl
  | cons call calls ih =>
    have rest := ih (w.apply call)
    cases call with
    | commit d q => exact rest.trans (commit_windowSize w d q)
    | reset => exact rest

/-- Every run of calls keeps the window standing for its history. -/
theorem run_committed (windowSize : Nat) (calls : List Call) (d : ReplayDomain) :
    ((new windowSize).run calls).Committed d (history calls d) := by
  induction calls using List.reverseRecOn with
  | nil => exact committed_new windowSize d
  | append_singleton calls call ih =>
    rw [run_snoc]
    cases call with
    | commit e q =>
      rw [history_commit]
      by_cases hd : d=e
      · subst hd
        rw [if_pos rfl]
        exact committed_commit _ d q _ ih
      · rw [if_neg hd]
        exact committed_commit_ne _ e d q _ hd ih
    | reset =>
      rw [history_reset]
      rfl

/-- The entry of a domain, when there is one, has the largest committed sequence and its bits. -/
theorem Committed.entry {w : ReplayWindow} {C : ReplayDomain → Set Nat}
    (h : ∀ d,w.Committed d (C d)) {s : State} (hs : s∈w.states) :
    SlidingWindow.Tracks s.highest.toNat s.bitmap.toBitVec (C s.domain) := by
  have found : w.find s.domain=some s := KeyedTable.lookup_of_mem State.domain w.distinct hs
  have tracks := h s.domain
  rw [Committed,found] at tracks
  exact tracks

theorem Committed.empty_iff {w : ReplayWindow} {d : ReplayDomain} {C : Set Nat}
    (h : w.Committed d C) : (∃s∈w.states,s.domain=d) ↔ C≠∅ := by
  obtain ⟨hf,hC⟩|⟨s,hf,tracks⟩ := h.cases
  · constructor
    · rintro ⟨s,hs,rfl⟩
      have found := KeyedTable.lookup_of_mem State.domain w.distinct hs
      rw [ReplayWindow.find,found] at hf
      exact absurd hf (by simp)
    · intro hn
      exact absurd hC hn
  · obtain ⟨hs,hd⟩ := KeyedTable.lookup_key State.domain hf
    constructor
    · intro _ hC
      have top := tracks.top_mem
      rw [hC] at top
      exact top
    · intro _
      exact ⟨s,hs,hd⟩

theorem Committed.admits_iff {w : ReplayWindow} {d : ReplayDomain} {C : Set Nat}
    (h : w.Committed d C) (width q : Nat) :
    SlidingWindow.Admits width C q ↔
      C=∅ ∨ q∉C ∧ ∀ top,IsGreatest C top → top<q+width := by
  obtain ⟨_,rfl⟩|⟨s,_,tracks⟩ := h.cases
  · exact iff_of_true (SlidingWindow.admits_empty width q) (Or.inl rfl)
  · have greatest := tracks.greatest
    rw [SlidingWindow.admits_greatest greatest]
    constructor
    · intro ⟨fresh,near⟩
      refine Or.inr ⟨fresh,?_⟩
      intro top ht
      rw [ht.unique greatest]
      exact near
    · rintro (hC|⟨fresh,near⟩)
      · have top := greatest.1
        rw [hC] at top
        exact top.elim
      · exact ⟨fresh,near _ greatest⟩

theorem wouldAccept_commit_ne (w : ReplayWindow) (d e : ReplayDomain) (p q : UInt64) (h : d≠e) :
    (w.commit e p).wouldAccept d q=w.wouldAccept d q := by
  unfold wouldAccept
  rw [find_commit,if_neg h,commit_windowSize]

/-- A replay window is the set of sequences committed for each domain since construction or the last
`Reset`: its answers, its entries and their bits are those of the set. -/
theorem refines_history (windowSize : Nat) (calls : List Call) :
    let w := (new windowSize).run calls
    let C := history calls
    (∀ d q,w.wouldAccept d q=true ↔ d.sessionID≠0 ∧ q≠0 ∧
      (C d=∅ ∨ q.toNat∉C d ∧ ∀ top,IsGreatest (C d) top → top<q.toNat+clamp windowSize)) ∧
    (∀ d,(w.states.map State.domain).count d≤1 ∧ ((∃s∈w.states,s.domain=d) ↔ C d≠∅)) ∧
    (∀s∈w.states,IsGreatest (C s.domain) s.highest.toNat ∧
      ∀ k,k<64 → (s.bitmap.toBitVec.getLsbD k=true ↔
        k ≤ s.highest.toNat ∧ s.highest.toNat-k∈C s.domain)) ∧
    ∀ d e p q,d≠e → (w.commit e p).wouldAccept d q=w.wouldAccept d q := by
  intro w C
  have committed : ∀ d,w.Committed d (C d) := run_committed windowSize calls
  have size : w.windowSize=clamp windowSize := run_windowSize (new windowSize) calls
  refine ⟨?_,?_,?_,?_⟩
  · intro d q
    rw [w.wouldAccept_iff d q _ (committed d),(committed d).admits_iff,size]
  · intro d
    exact ⟨List.nodup_iff_count_le_one.mp w.distinct d,(committed d).empty_iff⟩
  · intro s hs
    have tracks := Committed.entry committed hs
    exact ⟨tracks.greatest,tracks.bit⟩
  · intro d e p q h
    exact wouldAccept_commit_ne w d e p q h

/-! ### The order of the entries -/

/-- The same entries, in whatever order they were appended. -/
structure Alike (v w : ReplayWindow) : Prop where
  size : w.windowSize=v.windowSize
  entries : ∀ d,w.find d=v.find d

theorem Alike.refl (w : ReplayWindow) : Alike w w := ⟨rfl,fun _ => rfl⟩

theorem Alike.wouldAccept {v w : ReplayWindow} (h : Alike v w) (d : ReplayDomain) (q : UInt64) :
    w.wouldAccept d q=v.wouldAccept d q := by
  unfold ReplayWindow.wouldAccept
  rw [h.size,h.entries]

theorem Alike.commit {v w : ReplayWindow} (h : Alike v w) (d : ReplayDomain) (q : UInt64) :
    Alike (v.commit d q) (w.commit d q) := by
  constructor
  · simp [h.size]
  · intro e
    simp only [find_commit,h.entries]

theorem Alike.reset {v w : ReplayWindow} (h : Alike v w) : Alike v.reset w.reset :=
  ⟨h.size,fun _ => rfl⟩

/-- Commits to two domains may change places, up to the order of the entries. -/
theorem commit_comm (w : ReplayWindow) (d e : ReplayDomain) (p q : UInt64) (h : d≠e) :
    Alike ((w.commit d p).commit e q) ((w.commit e q).commit d p) := by
  constructor
  · simp
  · intro f
    simp only [find_commit,if_neg h,if_neg h.symm]
    by_cases hd : f=d
    · subst hd
      simp [h]
    · simp [hd]

theorem Alike.record {v w : ReplayWindow} (h : Alike v w) (c : Option (ReplayDomain×UInt64)) :
    Alike (v.record c) (w.record c) := by
  cases c with
  | none => exact h
  | some x => exact h.commit x.1 x.2

theorem record_comm (w : ReplayWindow) {c c' : Option (ReplayDomain×UInt64)}
    (h : ∀ x y,c=some x → c'=some y → x.1≠y.1) :
    Alike ((w.record c).record c') ((w.record c').record c) := by
  cases c with
  | none => apply Alike.refl
  | some x =>
    cases c' with
    | none => apply Alike.refl
    | some y => exact w.commit_comm x.1 y.1 x.2 y.2 (h x y rfl rfl)

theorem wouldAccept_record_ne (w : ReplayWindow) {c : Option (ReplayDomain×UInt64)}
    (d : ReplayDomain) (q : UInt64) (h : ∀ x,c=some x → d≠x.1) :
    (w.record c).wouldAccept d q=w.wouldAccept d q := by
  cases c with
  | none => rfl
  | some x => exact w.wouldAccept_commit_ne d x.1 x.2 q (h x rfl)

end ReplayWindow
end ESPressioSecurity
