import Mathlib.Data.List.Perm.Basic

namespace ESPressioSecurity.Framework.SharedHeap

variable {β : Type*}

/-- A block of shared storage and the number of its owners. -/
structure Cell (β : Type*) where
  content : β
  owners : Nat
  deriving Repr

def Cell.retain (c : Cell β) : Cell β := {c with owners := c.owners+1}

/-- One owner less; the last one erases the content. -/
def Cell.release (erase : β → β) (c : Cell β) : Cell β :=
  if c.owners≤1 then ⟨erase c.content,0⟩ else {c with owners := c.owners-1}

/-- A heap lists its blocks in the order of their allocation. A pointer is a position or null. -/
def alloc (h : List (Cell β)) (b : β) : List (Cell β) := h++[⟨b,1⟩]

def retain (h : List (Cell β)) : Option Nat → List (Cell β)
  | none => h
  | some a => h.modify a Cell.retain

def release (erase : β → β) (h : List (Cell β)) : Option Nat → List (Cell β)
  | none => h
  | some a => h.modify a (Cell.release erase)

def content (h : List (Cell β)) (a : Nat) : Option β := h[a]?.map Cell.content

/-! ### One pointer operation -/

theorem alloc_getElem? (h : List (Cell β)) (b : β) (a : Nat) :
    (alloc h b)[a]?=if a=h.length then some ⟨b,1⟩ else h[a]? := by
  rw [alloc]
  by_cases last : a=h.length
  · subst last
    simp
  · rw [if_neg last]
    rcases Nat.lt_or_gt_of_ne last with below|above
    · exact List.getElem?_append_left below
    · rw [List.getElem?_eq_none (by simp; omega),List.getElem?_eq_none (by omega)]

theorem retain_getElem? (h : List (Cell β)) (p : Option Nat) (a : Nat) :
    (retain h p)[a]?=h[a]?.map (fun c => if p=some a then c.retain else c) := by
  cases p with
  | none => simp [retain]
  | some b =>
    rw [retain,List.getElem?_modify]
    by_cases same : b=a <;> simp [same]

theorem release_getElem? (erase : β → β) (h : List (Cell β)) (p : Option Nat) (a : Nat) :
    (release erase h p)[a]?=h[a]?.map (fun c => if p=some a then c.release erase else c) := by
  cases p with
  | none => simp [release]
  | some b =>
    rw [release,List.getElem?_modify]
    by_cases same : b=a <;> simp [same]

@[simp] theorem alloc_length (h : List (Cell β)) (b : β) : (alloc h b).length=h.length+1 := by
  simp [alloc]

@[simp] theorem retain_length (h : List (Cell β)) (p : Option Nat) :
    (retain h p).length=h.length := by
  cases p <;> simp [retain]

@[simp] theorem release_length (erase : β → β) (h : List (Cell β)) (p : Option Nat) :
    (release erase h p).length=h.length := by
  cases p <;> simp [release]

theorem content_alloc (h : List (Cell β)) (b : β) (a : Nat) :
    content (alloc h b) a=if a=h.length then some b else content h a := by
  rw [content,alloc_getElem?]
  by_cases last : a=h.length <;> simp [last,content]

theorem content_retain (h : List (Cell β)) (p : Option Nat) (a : Nat) :
    content (retain h p) a=content h a := by
  rw [content,retain_getElem?,Option.map_map,content]
  congr 1
  funext c
  by_cases same : p=some a <;> simp [same,Cell.retain]

theorem content_release_ne (erase : β → β) (h : List (Cell β)) {p : Option Nat} {a : Nat}
    (hp : p≠some a) : content (release erase h p) a=content h a := by
  rw [content,release_getElem?,content]
  simp [hp]

/-! ### Owners -/

/-- The blocks count the pointers of the list `ps`, which holds all pointers there are. -/
structure Balanced (erase : β → β) (h : List (Cell β)) (ps : List (Option Nat)) : Prop where
  counted : ∀ (a : Nat) (c : Cell β),h[a]?=some c → c.owners=ps.count (some a)
  allocated : ∀ a : Nat,some a∈ps → a<h.length
  erased : ∀ (a : Nat) (c : Cell β),h[a]?=some c → c.owners=0 → ∃ b,c.content=erase b

theorem balanced_nil (erase : β → β) : Balanced erase [] [] :=
  ⟨by simp,by simp,by simp⟩

theorem Balanced.perm {erase : β → β} {h : List (Cell β)} {ps qs : List (Option Nat)}
    (b : Balanced erase h ps) (p : ps.Perm qs) : Balanced erase h qs := by
  refine ⟨?_,?_,b.erased⟩
  · intro a c hc
    rw [← p.count_eq]
    exact b.counted a c hc
  · intro a ha
    exact b.allocated a (p.mem_iff.mpr ha)

theorem Balanced.alive_iff {erase : β → β} {h : List (Cell β)} {ps : List (Option Nat)}
    (b : Balanced erase h ps) {a : Nat} {c : Cell β} (hc : h[a]?=some c) :
    0<c.owners ↔ some a∈ps := by
  rw [b.counted a c hc]
  exact List.count_pos_iff

theorem Balanced.alloc {erase : β → β} {h : List (Cell β)} {ps : List (Option Nat)}
    (b : Balanced erase h ps) (x : β) :
    Balanced erase (alloc h x) (some h.length::ps) := by
  have fresh : some h.length∉ps := fun hm => absurd (b.allocated _ hm) (Nat.lt_irrefl _)
  refine ⟨?_,?_,?_⟩
  · intro a c hc
    rw [alloc_getElem?] at hc
    by_cases last : a=h.length
    · subst last
      rw [if_pos rfl] at hc
      rw [List.count_cons_self,List.count_eq_zero.mpr fresh,← Option.some.inj hc]
    · rw [if_neg last] at hc
      have other : some h.length≠some a := fun he => last (Option.some.inj he).symm
      rw [List.count_cons_of_ne other]
      exact b.counted a c hc
  · intro a ha
    rw [alloc_length]
    rcases List.mem_cons.mp ha with he|ha
    · rw [Option.some.inj he]
      exact Nat.lt_succ_self _
    · exact Nat.lt_succ_of_lt (b.allocated a ha)
  · intro a c hc zero
    rw [alloc_getElem?] at hc
    by_cases last : a=h.length
    · rw [if_pos last] at hc
      rw [← Option.some.inj hc] at zero
      exact absurd zero (by simp)
    · rw [if_neg last] at hc
      exact b.erased a c hc zero

theorem Balanced.retain {erase : β → β} {h : List (Cell β)} {ps : List (Option Nat)}
    (b : Balanced erase h ps) {p : Option Nat} (hp : p=none ∨ p∈ps) :
    Balanced erase (retain h p) (p::ps) := by
  refine ⟨?_,?_,?_⟩
  · intro a c hc
    rw [retain_getElem?,Option.map_eq_some_iff] at hc
    obtain ⟨d,hd,rfl⟩ := hc
    have counted := b.counted a d hd
    by_cases same : p=some a
    · subst same
      rw [if_pos rfl,List.count_cons_self,← counted]
      rfl
    · rw [if_neg same,List.count_cons_of_ne same]
      exact counted
  · intro a ha
    rw [retain_length]
    rcases List.mem_cons.mp ha with rfl|ha
    · exact b.allocated a (hp.resolve_left (by simp))
    · exact b.allocated a ha
  · intro a c hc zero
    rw [retain_getElem?,Option.map_eq_some_iff] at hc
    obtain ⟨d,hd,rfl⟩ := hc
    by_cases same : p=some a
    · rw [if_pos same] at zero
      exact absurd zero (by simp [Cell.retain])
    · rw [if_neg same] at zero ⊢
      exact b.erased a d hd zero

theorem Balanced.release {erase : β → β} {h : List (Cell β)} {p : Option Nat}
    {ps : List (Option Nat)} (b : Balanced erase h (p::ps)) :
    Balanced erase (release erase h p) ps := by
  refine ⟨?_,?_,?_⟩
  · intro a c hc
    rw [release_getElem?,Option.map_eq_some_iff] at hc
    obtain ⟨d,hd,rfl⟩ := hc
    have counted := b.counted a d hd
    by_cases same : p=some a
    · subst same
      rw [List.count_cons_self] at counted
      rw [if_pos rfl,Cell.release]
      split_ifs with last
      · exact (Nat.le_zero.mp (by omega)).symm
      · show d.owners-1=_
        omega
    · rw [List.count_cons_of_ne same] at counted
      rw [if_neg same]
      exact counted
  · intro a ha
    rw [release_length]
    exact b.allocated a (List.mem_cons_of_mem p ha)
  · intro a c hc zero
    rw [release_getElem?,Option.map_eq_some_iff] at hc
    obtain ⟨d,hd,rfl⟩ := hc
    by_cases same : p=some a
    · rw [if_pos same,Cell.release] at zero ⊢
      split_ifs at zero ⊢ with last
      · exact ⟨d.content,rfl⟩
      · have positive : d.owners-1≠0 := by omega
        exact absurd zero positive
    · rw [if_neg same] at zero ⊢
      exact b.erased a d hd zero

/-- The content goes exactly with the last pointer. -/
theorem Balanced.content_release {erase : β → β} {h : List (Cell β)} {p : Option Nat}
    {ps : List (Option Nat)} (b : Balanced erase h (p::ps)) (a : Nat) :
    content (SharedHeap.release erase h p) a=
      if p=some a ∧ some a∉ps then (content h a).map erase else content h a := by
  rw [content,release_getElem?,content]
  cases hc : h[a]? with
  | none => simp
  | some c =>
    have counted := b.counted a c hc
    by_cases same : p=some a
    · subst same
      rw [List.count_cons_self] at counted
      by_cases more : some a∈ps
      · have count := List.count_pos_iff.mpr more
        have shared : ¬c.owners≤1 := by omega
        simp [more,Cell.release,shared]
      · have count := List.count_eq_zero.mpr more
        have last : c.owners≤1 := by omega
        simp [more,Cell.release,last]
    · simp [same]

/-! ### Several pointer operations -/

/-- From one heap to a later one: owned blocks keep their content, a block that lost its last owner
was erased in between, and a block without owners stays as it is. -/
structure Advances (erase : β → β) (h : List (Cell β)) (ps : List (Option Nat))
    (h' : List (Cell β)) (ps' : List (Option Nat)) : Prop where
  balanced : Balanced erase h' ps'
  grows : h.length≤h'.length
  kept : ∀a<h.length,some a∈ps' → some a∈ps ∧ content h' a=content h a
  lost : ∀a<h.length,some a∈ps → some a∉ps' → content h' a=(content h a).map erase
  gone : ∀a<h.length,some a∉ps → content h' a=content h a

theorem Advances.refl {erase : β → β} {h : List (Cell β)} {ps : List (Option Nat)}
    (b : Balanced erase h ps) : Advances erase h ps h ps where
  balanced := b
  grows := Nat.le_refl _
  kept := fun _ _ ha => ⟨ha,rfl⟩
  lost := fun _ _ ha hn => absurd ha hn
  gone := fun _ _ _ => rfl

theorem Advances.trans {erase : β → β} {h h' h'' : List (Cell β)} {ps ps' ps'' : List (Option Nat)}
    (x : Advances erase h ps h' ps') (y : Advances erase h' ps' h'' ps'') :
    Advances erase h ps h'' ps'' := by
  have later : ∀a<h.length,a<h'.length := fun a ha => Nat.lt_of_lt_of_le ha x.grows
  refine ⟨y.balanced,Nat.le_trans x.grows y.grows,?_,?_,?_⟩
  · intro a ha owned
    obtain ⟨between,same⟩ := y.kept a (later a ha) owned
    obtain ⟨before,same'⟩ := x.kept a ha between
    exact ⟨before,same.trans same'⟩
  · intro a ha before unowned
    by_cases between : some a∈ps'
    · rw [y.lost a (later a ha) between unowned,(x.kept a ha between).2]
    · rw [y.gone a (later a ha) between,x.lost a ha before between]
  · intro a ha unowned
    have between : some a∉ps' := fun hm => unowned (x.kept a ha hm).1
    rw [y.gone a (later a ha) between,x.gone a ha unowned]

theorem Advances.perm {erase : β → β} {h h' : List (Cell β)} {ps ps' qs qs' : List (Option Nat)}
    (x : Advances erase h ps h' ps') (p : ps.Perm qs) (p' : ps'.Perm qs') :
    Advances erase h qs h' qs' where
  balanced := x.balanced.perm p'
  grows := x.grows
  kept := by
    intro a ha owned
    obtain ⟨before,same⟩ := x.kept a ha (p'.mem_iff.mpr owned)
    exact ⟨p.mem_iff.mp before,same⟩
  lost := fun a ha before unowned =>
    x.lost a ha (p.mem_iff.mpr before) (fun hm => unowned (p'.mem_iff.mp hm))
  gone := fun a ha unowned => x.gone a ha (fun hm => unowned (p.mem_iff.mp hm))

theorem Balanced.advances_alloc {erase : β → β} {h : List (Cell β)} {ps : List (Option Nat)}
    (b : Balanced erase h ps) (x : β) :
    Advances erase h ps (SharedHeap.alloc h x) (some h.length::ps) := by
  have old : ∀a<h.length,content (SharedHeap.alloc h x) a=content h a := by
    intro a ha
    rw [content_alloc,if_neg (Nat.ne_of_lt ha)]
  refine ⟨b.alloc x,by simp,?_,?_,fun a ha _ => old a ha⟩
  · intro a ha owned
    rcases List.mem_cons.mp owned with he|owned
    · exact absurd (Option.some.inj he) (Nat.ne_of_lt ha)
    · exact ⟨owned,old a ha⟩
  · intro a ha before unowned
    exact absurd (List.mem_cons_of_mem _ before) unowned

theorem Balanced.advances_retain {erase : β → β} {h : List (Cell β)} {ps : List (Option Nat)}
    (b : Balanced erase h ps) {p : Option Nat} (hp : p=none ∨ p∈ps) :
    Advances erase h ps (SharedHeap.retain h p) (p::ps) := by
  refine ⟨b.retain hp,by simp,?_,?_,fun a _ _ => content_retain h p a⟩
  · intro a ha owned
    refine ⟨?_,content_retain h p a⟩
    rcases List.mem_cons.mp owned with rfl|owned
    · exact hp.resolve_left (by simp)
    · exact owned
  · intro a ha before unowned
    exact absurd (List.mem_cons_of_mem _ before) unowned

theorem Balanced.advances_release {erase : β → β} {h : List (Cell β)} {p : Option Nat}
    {ps : List (Option Nat)} (b : Balanced erase h (p::ps)) :
    Advances erase h (p::ps) (SharedHeap.release erase h p) ps := by
  refine ⟨b.release,by simp,?_,?_,?_⟩
  · intro a ha owned
    refine ⟨List.mem_cons_of_mem p owned,?_⟩
    rw [b.content_release,if_neg (fun last => last.2 owned)]
  · intro a ha before unowned
    have last : p=some a := by
      rcases List.mem_cons.mp before with he|hm
      · exact he.symm
      · exact absurd hm unowned
    rw [b.content_release,if_pos ⟨last,unowned⟩]
  · intro a ha unowned
    have other : p≠some a := fun he => unowned (he ▸ List.mem_cons_self)
    rw [b.content_release,if_neg (fun last => other last.1)]

/-- A pointer variable that owned `q` is given `p`: the new block is retained before the old one is
released. -/
theorem Balanced.advances_assign {erase : β → β} {h : List (Cell β)} {p q : Option Nat}
    {ps qs : List (Option Nat)} (b : Balanced erase h ps) (hp : p=none ∨ p∈ps)
    (swap : (p::ps).Perm (q::qs)) :
    Advances erase h ps (SharedHeap.release erase (SharedHeap.retain h p) q) qs := by
  have retained := (b.advances_retain hp).perm (List.Perm.refl ps) swap
  exact retained.trans retained.balanced.advances_release

/-- Releasing several pointers one after the other. -/
theorem Balanced.advances_releases {erase : β → β} (rs ps : List (Option Nat))
    {h : List (Cell β)} (b : Balanced erase h (rs++ps)) :
    Advances erase h (rs++ps) (rs.foldl (SharedHeap.release erase) h) ps := by
  induction rs generalizing h with
  | nil => exact Advances.refl b
  | cons p rs ih => exact b.advances_release.trans (ih b.release)

/-! ### Pointers held in slots -/

theorem perm_set {γ δ : Type*} (f : γ → δ) {xs : List γ} {i : Nat} {x : γ} (hx : xs[i]?=some x)
    (y : γ) : (f y::xs.map f).Perm (f x::(xs.set i y).map f) := by
  obtain ⟨hi,he⟩ := List.getElem?_eq_some_iff.mp hx
  have old := (List.getElem_cons_eraseIdx_perm hi).map f
  have new := (List.set_perm_cons_eraseIdx hi y).map f
  rw [he] at old
  calc
    (f y::xs.map f).Perm (f y::f x::(xs.eraseIdx i).map f) := old.symm.cons (f y)
    List.Perm _ (f x::f y::(xs.eraseIdx i).map f) := List.Perm.swap (f x) (f y) _
    List.Perm _ (f x::(xs.set i y).map f) := new.symm.cons (f x)

/-- The pointers of holder `i`, and those of all the others. -/
theorem perm_flatMap {γ δ : Type*} (f : γ → List δ) {xs : List γ} {i : Nat} {x : γ}
    (hx : xs[i]?=some x) : (xs.flatMap f).Perm (f x++(xs.eraseIdx i).flatMap f) := by
  obtain ⟨hi,he⟩ := List.getElem?_eq_some_iff.mp hx
  have whole := (List.getElem_cons_eraseIdx_perm hi).symm.flatMap_right f
  rw [he] at whole
  exact whole

end ESPressioSecurity.Framework.SharedHeap
