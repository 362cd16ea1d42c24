import ESPressioSecurity.Model.KeyLifetimes

namespace ESPressioSecurity

open Framework SharedHeap

namespace KeyStorage

/-! ### Where a view's key comes from -/

def live (s : KeyStorage) (i : Nat) : Bool := (s.views[i]?.join).isSome

/-- The slot that an operation writes. -/
def writes (s : KeyStorage) : Operation → Option Nat
  | .getKey i _ _ => if s.live i then some i else none
  | .copy i j => if s.live i && s.live j then some j else none
  | .destroy i => if s.live i then some i else none
  | .declare => some s.views.length
  | _ => none

/-- The key in slot `i` after a run was put there by a `GetKey` that ran after `past`, directly or
through copies. -/
inductive Borrowed : List Operation → Nat → List Operation → UInt32 → AeadAlgorithm → Prop
  | got {ops : List Operation} {i : Nat} {keyID : UInt32} {algorithm : AeadAlgorithm}
      (w : (machine.after empty ops).writes (.getKey i keyID algorithm)=some i) :
      Borrowed (ops++[.getKey i keyID algorithm]) i ops keyID algorithm
  | copied {ops past : List Operation} {i j : Nat} {keyID : UInt32} {algorithm : AeadAlgorithm}
      (h : Borrowed ops i past keyID algorithm)
      (w : (machine.after empty ops).writes (.copy i j)=some j) :
      Borrowed (ops++[.copy i j]) j past keyID algorithm
  | spared {ops past : List Operation} {op : Operation} {i : Nat} {keyID : UInt32}
      {algorithm : AeadAlgorithm} (h : Borrowed ops i past keyID algorithm)
      (w : (machine.after empty ops).writes op≠some i) :
      Borrowed (ops++[op]) i past keyID algorithm

/-- The key stored for a pair, read through the heap. -/
def current (s : KeyStorage) (keyID : UInt32) (algorithm : AeadAlgorithm) : KeyMaterialView :=
  match s.findLocked keyID algorithm with
  | none => Snapshots.noKey
  | some e => ⟨e.keyID,bytesAt s.heap e.storage⟩

theorem Refines.current {s : KeyStorage} {w : Snapshots} (h : s.Refines w) (keyID : UInt32)
    (algorithm : AeadAlgorithm) :
    s.current keyID algorithm=(w.provider.getKey keyID algorithm).getD Snapshots.noKey := by
  have looked := h.findLocked keyID algorithm
  rw [KeyStorage.current,StaticKeyProvider.getKey,looked]
  cases found : s.findLocked keyID algorithm with
  | none => rfl
  | some e =>
    have bytes := (h.stored e (mem_of_findLocked found)).bytes
    have stored : ¬(e.value s.heap).storage=[] := bytes
    simp only [Option.map_some]
    rw [if_neg stored]
    rfl

theorem Refines.live_iff {s : KeyStorage} {w : Snapshots} (h : s.Refines w) (i : Nat) :
    s.live i=true ↔ ∃ x,w.views[i]?=some (some x) := by
  rw [live,h.slot]
  rcases hv : s.views[i]? with _|_|v <;> simp

/-! ### Slots of the value machine -/

theorem getKey_slot {s : KeyStorage} {w : Snapshots} (h : s.Refines w) {i : Nat}
    {keyID : UInt32} {algorithm : AeadAlgorithm}
    (writes : s.writes (.getKey i keyID algorithm)=some i) :
    (Snapshots.machine.step w (.getKey i keyID algorithm)).1.views[i]?=
      some (some (s.current keyID algorithm)) := by
  have alive : s.live i=true := (Option.ite_some_none_eq_some.mp writes).1
  obtain ⟨x,hx⟩ := (h.live_iff i).mp alive
  obtain ⟨hi,_⟩ := List.getElem?_eq_some_iff.mp hx
  rw [h.current]
  show (w.getKey i keyID algorithm).1.views[i]?=_
  rw [Snapshots.getKey,hx]
  exact List.getElem?_set_self hi

theorem copy_slot {s : KeyStorage} {w : Snapshots} (h : s.Refines w) {i j : Nat}
    (writes : s.writes (.copy i j)=some j) : ∃ x,w.views[i]?=some (some x) ∧
      (Snapshots.machine.step w (.copy i j)).1.views[j]?=some (some x) := by
  have alive : s.live i=true ∧ s.live j=true := by
    rw [← Bool.and_eq_true]
    exact (Option.ite_some_none_eq_some.mp writes).1
  obtain ⟨x,hx⟩ := (h.live_iff i).mp alive.1
  obtain ⟨y,hy⟩ := (h.live_iff j).mp alive.2
  obtain ⟨hj,_⟩ := List.getElem?_eq_some_iff.mp hy
  refine ⟨x,hx,?_⟩
  show (w.copy i j).1.views[j]?=_
  rw [Snapshots.copy,hx,hy]
  exact List.getElem?_set_self hj

theorem declare_slot {s : KeyStorage} {w : Snapshots} (h : s.Refines w) {i : Nat}
    (writes : s.writes .declare=some i) :
    (Snapshots.machine.step w .declare).1.views[i]?=some (some Snapshots.noKey) := by
  have length : w.views.length=i := by
    rw [← h.shown,List.length_map]
    exact Option.some.inj writes
  subst length
  exact List.getElem?_concat_length

theorem destroy_slot {s : KeyStorage} {w : Snapshots} (h : s.Refines w) {i : Nat}
    (writes : s.writes (.destroy i)=some i) :
    (Snapshots.machine.step w (.destroy i)).1.views[i]?=some none := by
  have alive : s.live i=true := (Option.ite_some_none_eq_some.mp writes).1
  obtain ⟨x,hx⟩ := (h.live_iff i).mp alive
  obtain ⟨hi,_⟩ := List.getElem?_eq_some_iff.mp hx
  show (w.destroy i).1.views[i]?=_
  rw [Snapshots.destroy,hx]
  exact List.getElem?_set_self hi

/-- Every other slot is as it was. -/
theorem spared_slot {s : KeyStorage} {w : Snapshots} (h : s.Refines w) {op : Operation} {i : Nat}
    (writes : s.writes op≠some i) :
    (Snapshots.machine.step w op).1.views[i]?=w.views[i]? := by
  cases op with
  | add memory keyID algorithm key => rfl
  | remove keyID algorithm => rfl
  | clear => rfl
  | getKey j keyID algorithm =>
    show (w.getKey j keyID algorithm).1.views[i]?=_
    rw [Snapshots.getKey]
    split
    · rename_i x hx
      have alive := (h.live_iff j).mpr ⟨x,hx⟩
      have other : j≠i := by simpa [KeyStorage.writes,alive] using writes
      exact List.getElem?_set_ne other
    · rfl
  | declare =>
    have length : w.views.length=s.views.length := by rw [← h.shown,List.length_map]
    have other : w.views.length≠i := by simpa [KeyStorage.writes,length] using writes
    show (w.views++[some Snapshots.noKey])[i]?=_
    rcases Nat.lt_or_gt_of_ne other with above|below
    · rw [List.getElem?_eq_none (by simp; omega),List.getElem?_eq_none (by omega)]
    · exact List.getElem?_append_left below
  | copy j k =>
    show (w.copy j k).1.views[i]?=_
    rw [Snapshots.copy]
    split
    · rename_i x y hx hy
      have source := (h.live_iff j).mpr ⟨x,hx⟩
      have target := (h.live_iff k).mpr ⟨y,hy⟩
      have other : k≠i := by simpa [KeyStorage.writes,source,target] using writes
      exact List.getElem?_set_ne other
    · rfl
  | destroy j =>
    show (w.destroy j).1.views[i]?=_
    rw [Snapshots.destroy]
    split
    · rename_i x hx
      have alive := (h.live_iff j).mpr ⟨x,hx⟩
      have other : j≠i := by simpa [KeyStorage.writes,alive] using writes
      exact List.getElem?_set_ne other
    · rfl

/-! ### Runs -/

/-- A borrowed key is the one that was current when its `GetKey` ran. -/
theorem Borrowed.snapshot {ops past : List Operation} {i : Nat} {keyID : UInt32}
    {algorithm : AeadAlgorithm} (h : Borrowed ops i past keyID algorithm) :
    ∀ x,(Snapshots.machine.after Snapshots.empty ops).views[i]?=some (some x) →
      x=(machine.after empty past).current keyID algorithm := by
  induction h with
  | @got ops i keyID algorithm writes =>
    intro x hx
    rw [Snapshots.machine.after_snoc,getKey_slot (run_refines ops).1 writes] at hx
    exact (Option.some.inj (Option.some.inj hx)).symm
  | @copied ops past i j keyID algorithm _ writes ih =>
    intro x hx
    obtain ⟨y,source,target⟩ := copy_slot (run_refines ops).1 writes
    rw [Snapshots.machine.after_snoc,target] at hx
    rw [← Option.some.inj (Option.some.inj hx)]
    exact ih y source
  | @spared ops past op i keyID algorithm _ writes ih =>
    intro x hx
    rw [Snapshots.machine.after_snoc,spared_slot (run_refines ops).1 writes] at hx
    exact ih x hx

/-- Every key in a view was borrowed. -/
theorem borrowed_of_key (ops : List Operation) : ∀ i x,
    (Snapshots.machine.after Snapshots.empty ops).views[i]?=some (some x) → x≠Snapshots.noKey →
    ∃ past keyID algorithm,Borrowed ops i past keyID algorithm := by
  induction ops using List.reverseRecOn with
  | nil =>
    intro i x hx
    exact absurd hx (by simp [Machine.after,Snapshots.empty])
  | append_singleton ops op ih =>
    intro i x hx key
    have refines := (run_refines ops).1
    by_cases writes : (machine.after empty ops).writes op=some i
    · cases op with
      | add memory keyID algorithm bytes => exact absurd writes (by simp [KeyStorage.writes])
      | remove keyID algorithm => exact absurd writes (by simp [KeyStorage.writes])
      | clear => exact absurd writes (by simp [KeyStorage.writes])
      | getKey j keyID algorithm =>
        obtain ⟨_,rfl⟩ := Option.ite_some_none_eq_some.mp writes
        exact ⟨ops,keyID,algorithm,.got writes⟩
      | declare =>
        rw [Snapshots.machine.after_snoc,declare_slot refines writes] at hx
        exact absurd (Option.some.inj (Option.some.inj hx)).symm key
      | copy j k =>
        obtain ⟨_,rfl⟩ := Option.ite_some_none_eq_some.mp writes
        obtain ⟨y,source,target⟩ := copy_slot refines writes
        rw [Snapshots.machine.after_snoc,target] at hx
        rw [← Option.some.inj (Option.some.inj hx)] at key
        obtain ⟨past,keyID,algorithm,h⟩ := ih j y source key
        exact ⟨past,keyID,algorithm,.copied h writes⟩
      | destroy j =>
        obtain ⟨_,rfl⟩ := Option.ite_some_none_eq_some.mp writes
        rw [Snapshots.machine.after_snoc,destroy_slot refines writes] at hx
        exact absurd hx (by simp)
    · rw [Snapshots.machine.after_snoc,spared_slot refines writes] at hx
      obtain ⟨past,keyID,algorithm,h⟩ := ih i x hx key
      exact ⟨past,keyID,algorithm,.spared h writes⟩

theorem View.Tied.size {heap : List (Cell Bytes)} {v : View} (h : v.Tied heap) :
    v.size=(v.exposes heap).data.length := by
  rcases h with rfl|⟨data,size,_⟩
  · rfl
  · rw [View.exposes,data,size,List.take_length]

theorem View.Tied.key {heap : List (Cell Bytes)} {v : View} (h : v.Tied heap)
    (hv : v.isEmpty=false) : v.exposes heap≠Snapshots.noKey := by
  rcases h with rfl|⟨data,size,stored⟩
  · exact absurd hv (by simp [View.isEmpty])
  · intro same
    have none_read : (bytesAt heap v.data).take v.size=[] := congrArg KeyMaterialView.data same
    rw [data,size,List.take_length] at none_read
    exact stored.bytes none_read

/-- What a block without owners holds. -/
theorem erased_content {s : KeyStorage} (h : s.Sound) {a : Nat} {c : Cell Bytes}
    (hc : s.heap[a]?=some c) (unowned : some a∉s.pointers) :
    c.owners=0 ∧ ∃ n,c.content=List.replicate n 0 := by
  have dead : c.owners=0 := by
    rw [h.counted a c hc]
    exact List.count_eq_zero.mpr unowned
  obtain ⟨b,hb⟩ := h.erased a c hc dead
  exact ⟨dead,b.length,hb.trans (KeyMaterialStorage.erase_eq b)⟩

theorem destroy_all (s : KeyStorage) (n : Nat) :
    let t := machine.after s ((List.range n).map .destroy)
    t.entries=s.entries ∧ t.views.length=s.views.length ∧ ∀j<n,∀ v,t.views[j]?≠some (some v) := by
  induction n with
  | zero => exact ⟨rfl,rfl,by simp⟩
  | succ n ih =>
    obtain ⟨entries,length,gone⟩ := ih
    intro t
    generalize hu : machine.after s ((List.range n).map .destroy)=u at entries length gone
    have last : t=(u.destroy n).1 := by
      show machine.after s _=_
      rw [List.range_succ,List.map_append,List.map_singleton,machine.after_snoc,hu]
      rfl
    rw [last,destroy]
    split
    · rename_i v hv
      refine ⟨entries,(List.length_set).trans length,?_⟩
      intro j hj v'
      show (u.views.set n none)[j]?≠_
      by_cases here : n=j
      · subst here
        rw [List.getElem?_set_self']
        cases u.views[n]? <;> simp
      · rw [List.getElem?_set_ne here]
        exact gone j (by omega) v'
    · rename_i dead
      refine ⟨entries,length,?_⟩
      intro j hj v'
      by_cases here : j=n
      · subst here
        exact dead v'
      · exact gone j (by omega) v'

/-- Without entries and views nothing owns a block. -/
theorem cleared_unowned (s : KeyStorage) (a : Nat) :
    some a∉(machine.after s (.clear::(List.range s.views.length).map .destroy)).pointers := by
  have all := destroy_all s.clear s.views.length
  have same : machine.after s (.clear::(List.range s.views.length).map .destroy)=
      machine.after s.clear ((List.range s.views.length).map .destroy) := rfl
  rw [same]
  obtain ⟨entries,length,gone⟩ := all
  intro owned
  rcases List.mem_append.mp owned with entry|view
  · have none_left : s.clear.entries=[] := rfl
    rw [entries,none_left] at entry
    exact absurd entry (by simp)
  · obtain ⟨x,hx,owner⟩ := List.mem_map.mp view
    obtain ⟨j,hj⟩ := List.mem_iff_getElem?.mp hx
    obtain ⟨inside,_⟩ := List.getElem?_eq_some_iff.mp hj
    have bound : j<s.views.length := Nat.lt_of_lt_of_eq inside length
    cases x with
    | none => exact absurd owner (by simp [held])
    | some v => exact gone j bound v hj

/-- In every reachable state a view that holds a key exposes the one that was current when its
`GetKey` ran; each operation leaves the owned blocks as they are and erases exactly those whose last
owner it takes; and without entries and views no block holds key bytes. -/
theorem keys_retained (ops : List Operation) :
    let now := machine.after empty ops
    (∀ i v,now.views[i]?=some (some v) →
      (v.isEmpty=false → ∃ past keyID algorithm,Borrowed ops i past keyID algorithm) ∧
      ∀ past keyID algorithm,Borrowed ops i past keyID algorithm →
        v.exposes now.heap=(machine.after empty past).current keyID algorithm ∧
        v.size=((machine.after empty past).current keyID algorithm).data.length) ∧
    (∀ op,∀a<now.heap.length,
      let next := (machine.step now op).1
      (some a∈next.pointers → some a∈now.pointers ∧ content next.heap a=content now.heap a) ∧
      (some a∈now.pointers → some a∉next.pointers →
        content next.heap a=(content now.heap a).map (fun b => List.replicate b.length 0)) ∧
      (some a∉now.pointers → content next.heap a=content now.heap a)) ∧
    (∀ (a : Nat) (c : Cell Bytes),now.heap[a]?=some c →
      (0<c.owners ↔ some a∈now.pointers) ∧
      (some a∉now.pointers → ∃ n,c.content=List.replicate n 0)) ∧
    let cleared := machine.after now (.clear::(List.range now.views.length).map .destroy)
    ∀ (a : Nat) (c : Cell Bytes),cleared.heap[a]?=some c →
      c.owners=0 ∧ ∃ n,c.content=List.replicate n 0 := by
  intro now
  have refines := (run_refines ops).1
  have sound : now.Sound := refines.sound
  refine ⟨?_,?_,?_,?_⟩
  · intro i v hv
    have tied := refines.tied v (List.mem_of_getElem? hv)
    have shown : (Snapshots.machine.after Snapshots.empty ops).views[i]?=
        some (some (v.exposes now.heap)) := by
      rw [refines.slot,hv]
      rfl
    constructor
    · intro key
      exact borrowed_of_key ops i _ shown (tied.key key)
    · intro past keyID algorithm h
      have same := h.snapshot _ shown
      refine ⟨same,?_⟩
      rw [← same]
      exact tied.size
  · intro op a ha next
    have moves := step_moves sound op
    refine ⟨moves.kept a ha,?_,moves.gone a ha⟩
    intro before after
    have erased := moves.lost a ha before after
    rw [show KeyMaterialStorage.erase=_ from funext KeyMaterialStorage.erase_eq] at erased
    exact erased
  · intro a c hc
    exact ⟨sound.alive_iff hc,fun unowned => (erased_content sound hc unowned).2⟩
  · intro cleared a c hc
    have after : (machine.after empty
        (ops++.clear::(List.range now.views.length).map .destroy)).Sound := run_sound _
    rw [machine.after_append] at after
    exact erased_content after hc (cleared_unowned now a)

/-- The run of the provider's lifetime test: the view outlives the replaced and removed entry, and
the block that replaced it is gone at once. -/
example :
    let now := machine.after empty [.add {} 1 .aes256GCM (.bytes [0x11,0x11]),.declare,
      .getKey 0 1 .aes256GCM,.add {} 1 .aes256GCM (.bytes [0x22,0x22]),.remove 1 .aes256GCM]
    now.views.map (Option.map (View.exposes now.heap))=[some ⟨1,[0x11,0x11]⟩] ∧
    now.heap.map Cell.content=[[0x11,0x11],[0,0]] := by decide

end KeyStorage
end ESPressioSecurity
