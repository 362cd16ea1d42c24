import ESPressioSecurity.Framework.SharedObject
import ESPressioSecurity.Model.KeyLifetimes

namespace ESPressioSecurity

open Framework SharedHeap

namespace KeyThreads

open KeyStorage (Operation Entry View)

/-- What a call gives back: its result and, where `GetKey` found one, the key it bound its view to. -/
structure Answer where
  result : Bool
  key : Option KeyMaterialView := none

instance : Coe Bool Answer := ⟨fun result => {result}⟩

/-- What a call of the provider does while it holds the mutex. `Add` brings a block. -/
inductive Section
  | add (memory : StaticKeyProvider.AddAllocation) (keyID : UInt32) (algorithm : AeadAlgorithm)
      (storage : Option Nat)
  | remove (keyID : UInt32) (algorithm : AeadAlgorithm)
  | clear
  | getKey (i : Nat) (keyID : UInt32) (algorithm : AeadAlgorithm)

/-- Where a thread is in its call, with the pointers that its local variables own. -/
inductive Phase
  | idle
  | called (op : Operation)
  | emptied (i : Nat) (keyID : UInt32) (algorithm : AeadAlgorithm) (old : Option Nat)
  | waiting (c : Section)
  | inside (c : Section)
  | binding (i : Nat) (keyID : UInt32) (storage : Option Nat)
  /-- Holds the mutex, releases `now`, unlocks, releases `later` and returns. -/
  | leaving (now later : List (Option Nat)) (answer : Answer)
  | returning (later : List (Option Nat)) (answer : Answer)

def Section.pointers : Section → List (Option Nat)
  | .add _ _ _ storage => [storage]
  | _ => []

def Phase.pointers : Phase → List (Option Nat)
  | .emptied _ _ _ old => [old]
  | .waiting c | .inside c => c.pointers
  | .binding _ _ storage => [storage]
  | .leaving now later _ => now++later
  | .returning later _ => later
  | .idle | .called _ => []

def Section.slots : Section → List Nat
  | .getKey i _ _ => [i]
  | _ => []

def slotsOf : Operation → List Nat
  | .getKey i _ _ | .destroy i => [i]
  | .copy i j => [i,j]
  | _ => []

/-- The views that the rest of the call reads or writes. -/
def Phase.slots : Phase → List Nat
  | .called op => slotsOf op
  | .emptied i _ _ _ | .binding i _ _ => [i]
  | .waiting c | .inside c => c.slots
  | _ => []

def Phase.holds : Phase → Bool
  | .inside _ | .binding _ _ _ | .leaving _ _ _ => true
  | _ => false

end KeyThreads

/-- A `StaticKeyProvider` between threads: the storage they share, the holder of `_mutex`, and how far
each thread is in its call. -/
structure KeyThreads where
  storage : KeyStorage
  owner : Option Nat
  phases : List KeyThreads.Phase

namespace KeyThreads

open KeyStorage (Operation Entry View)

def start (threads : Nat) : KeyThreads := ⟨KeyStorage.empty,none,List.replicate threads .idle⟩

def goTo (s : KeyThreads) (t : Nat) (p : Phase) : KeyThreads := {s with phases := s.phases.set t p}

@[simp] theorem goTo_storage (s : KeyThreads) (t : Nat) (p : Phase) :
    (s.goTo t p).storage=s.storage := rfl

def free (s : KeyThreads) (p : Option Nat) : KeyStorage :=
  {s.storage with heap := release KeyMaterialStorage.erase s.storage.heap p}

def setSlot (s : KeyStorage) (i : Nat) (v : Option View) : KeyStorage :=
  {s with views := s.views.set i v}

/-- A call up to its first access to the mutex; the operations on views end here. -/
def enter (s : KeyThreads) (t : Nat) : Operation → KeyThreads
  | .add memory keyID algorithm key =>
    match key with
    | .null _ => s.goTo t (.returning [] false)
    | .bytes b =>
      if keyID=0 ∨ b.length=0 then s.goTo t (.returning [] false)
      else if memory.storage=false then s.goTo t (.returning [] false)
      else {s with storage := {s.storage with heap := alloc s.storage.heap b}}.goTo t
        (.waiting (.add memory keyID algorithm (some s.storage.heap.length)))
  | .remove keyID algorithm => s.goTo t (.waiting (.remove keyID algorithm))
  | .clear => s.goTo t (.waiting .clear)
  | .getKey i keyID algorithm =>
    match s.storage.views[i]? with
    | some (some v) =>
      {s with storage := setSlot s.storage i (some {})}.goTo t (.emptied i keyID algorithm v.storage)
    | _ => s.goTo t (.returning [] false)
  | .declare => {s with storage := s.storage.declare}.goTo t (.returning [] true)
  | .copy i j =>
    match s.storage.views[i]?,s.storage.views[j]? with
    | some (some v),some (some w) =>
      {s with storage := {s.storage with
          heap := retain s.storage.heap v.storage
          views := s.storage.views.set j (some v)}}.goTo t (.returning [w.storage] true)
    | _,_ => s.goTo t (.returning [] false)
  | .destroy i =>
    match s.storage.views[i]? with
    | some (some v) =>
      {s with storage := setSlot s.storage i none}.goTo t (.returning [v.storage] true)
    | _ => s.goTo t (.returning [] false)

/-- The table is searched, and changed, under the mutex. -/
def perform (s : KeyThreads) (t : Nat) : Section → KeyThreads
  | .add memory keyID algorithm storage =>
    match s.storage.findLocked keyID algorithm with
    | some found =>
      {s with storage := {s.storage with
          entries := KeyedTable.modify Entry.pair found.pair (fun e => {e with storage := storage})
            s.storage.entries}}.goTo t (.leaving [found.storage] [] true)
    | none =>
      if memory.entry=false then s.goTo t (.leaving [storage] [] false)
      else {s with storage := {s.storage with
          entries := s.storage.entries++[Entry.mk keyID algorithm storage]}}.goTo t (.leaving [] [] true)
  | .remove keyID algorithm =>
    match s.storage.findLocked keyID algorithm with
    | none => s.goTo t (.leaving [] [] false)
    | some found =>
      {s with storage := {s.storage with
          entries := KeyedTable.erase Entry.pair found.pair s.storage.entries}}.goTo t
        (.leaving [found.storage] [] true)
  | .clear =>
    -- the swapped out entries are destroyed after the unlock
    {s with storage := {s.storage with entries := []}}.goTo t
      (.leaving [] (s.storage.entries.map Entry.storage) true)
  | .getKey i keyID algorithm =>
    match s.storage.findLocked keyID algorithm with
    | none => s.goTo t (.leaving [] [] false)
    | some found =>
      if found.storage=none then s.goTo t (.leaving [] [] false)
      else {s with storage := {s.storage with
          heap := retain s.storage.heap found.storage}}.goTo t
        (.binding i found.keyID found.storage)

/-- The view that `Bind` makes of the pointer copied for it. -/
def bound (s : KeyThreads) (keyID : UInt32) (storage : Option Nat) : View :=
  (View.bind s.storage.heap {} keyID storage).2

/-- `GetKey` returns what `Bind` does, with the view bound. -/
def answered (s : KeyThreads) (keyID : UInt32) (storage : Option Nat) : Answer :=
  if (s.bound keyID storage).isEmpty then false
  else ⟨true,some ((s.bound keyID storage).exposes s.storage.heap)⟩

/-- The next access of thread `t` to what the threads share. -/
def advance (s : KeyThreads) (t : Nat) :
    KeyThreads×Option (SharedObject.Event Nat Operation Answer) :=
  match s.phases[t]? with
  | none | some .idle => (s,none)
  | some (.called op) => (s.enter t op,none)
  | some (.emptied i keyID algorithm old) =>
    ({s with storage := s.free old}.goTo t (.waiting (.getKey i keyID algorithm)),none)
  | some (.waiting c) =>
    if s.owner=none then ({s with owner := some t}.goTo t (.inside c),none) else (s,none)
  | some (.inside c) => (s.perform t c,none)
  | some (.binding i keyID storage) =>
    ({s with storage := setSlot s.storage i (some (s.bound keyID storage))}.goTo t
      (.leaving [] [] (s.answered keyID storage)),none)
  | some (.leaving (p::now) later answer) =>
    ({s with storage := s.free p}.goTo t (.leaving now later answer),none)
  | some (.leaving [] later answer) => ({s with owner := none}.goTo t (.returning later answer),none)
  | some (.returning (p::later) answer) =>
    ({s with storage := s.free p}.goTo t (.returning later answer),none)
  | some (.returning [] answer) => (s.goTo t .idle,some (.ret t answer))

/-- Clients do not use a view that is in use in another call. -/
def available (s : KeyThreads) (op : Operation) : Bool :=
  s.phases.all (fun p => p.slots.all (fun i => !(slotsOf op).contains i))

/-- A client calls, or the scheduler lets a thread go on. -/
inductive Action
  | call (t : Nat) (op : Operation)
  | advance (t : Nat)

def step (s : KeyThreads) :
    Action → KeyThreads×Option (SharedObject.Event Nat Operation Answer)
  | .call t op =>
    match s.phases[t]? with
    | some .idle =>
      if s.available op then (s.goTo t (.called op),some (.call t op)) else (s,none)
    | _ => (s,none)
  | .advance t => s.advance t

def machine : Machine KeyThreads Action (Option (SharedObject.Event Nat Operation Answer)) := ⟨step⟩

/-! ### Owners -/

/-- All pointers that own blocks: those of the table and the views, and those on the way. -/
def pointers (s : KeyThreads) : List (Option Nat) :=
  s.storage.pointers++s.phases.flatMap Phase.pointers

def Sound (s : KeyThreads) : Prop := Balanced KeyMaterialStorage.erase s.storage.heap s.pointers

def Moves (s u : KeyThreads) : Prop :=
  Advances KeyMaterialStorage.erase s.storage.heap s.pointers u.storage.heap u.pointers

theorem start_sound (threads : Nat) : (start threads).Sound := by
  have none : (start threads).pointers=[] := by
    simp [pointers,start,KeyStorage.pointers,KeyStorage.empty,Phase.pointers]
  rw [Sound,none]
  exact balanced_nil _

/-- The pointers when thread `t` is at `p`, those of the other threads last. -/
theorem pointers_at {s : KeyThreads} {t : Nat} {p : Phase} (hp : s.phases[t]?=some p) :
    s.pointers.Perm
      ((p.pointers++s.storage.pointers)++(s.phases.eraseIdx t).flatMap Phase.pointers) := by
  have split := (perm_flatMap Phase.pointers hp).append_left s.storage.pointers
  refine split.trans ?_
  rw [← List.append_assoc]
  exact List.perm_append_comm.append_right _

/-- Thread `t` goes from `p` to `q`, and the rest of the step is about blocks and the storage. -/
structure Turn (s u : KeyThreads) (t : Nat) (p q : Phase) : Prop where
  was : s.phases[t]?=some p
  phases : u.phases=s.phases.set t q

theorem Turn.now {s u : KeyThreads} {t : Nat} {p q : Phase} (turn : Turn s u t p q) :
    u.phases[t]?=some q := by
  obtain ⟨ht,_⟩ := List.getElem?_eq_some_iff.mp turn.was
  rw [turn.phases]
  exact List.getElem?_set_self ht

theorem Turn.pointers_now {s u : KeyThreads} {t : Nat} {p q : Phase} (turn : Turn s u t p q) :
    u.pointers.Perm
      ((q.pointers++u.storage.pointers)++(s.phases.eraseIdx t).flatMap Phase.pointers) := by
  have split := pointers_at turn.now
  rw [turn.phases,List.eraseIdx_set_eq] at split
  exact split

theorem Turn.advances {s u : KeyThreads} {t : Nat} {p q : Phase} (turn : Turn s u t p q)
    (advances : ∀ rest,
      Balanced KeyMaterialStorage.erase s.storage.heap ((p.pointers++s.storage.pointers)++rest) →
      Advances KeyMaterialStorage.erase s.storage.heap ((p.pointers++s.storage.pointers)++rest)
        u.storage.heap ((q.pointers++u.storage.pointers)++rest)) (h : s.Sound) : s.Moves u :=
  (advances _ (h.perm (pointers_at turn.was))).perm (pointers_at turn.was).symm
    turn.pointers_now.symm

/-- Pointers only change hands. -/
theorem Turn.passes {s u : KeyThreads} {t : Nat} {p q : Phase} (turn : Turn s u t p q)
    (heap : u.storage.heap=s.storage.heap)
    (same : (p.pointers++s.storage.pointers).Perm (q.pointers++u.storage.pointers))
    (h : s.Sound) : s.Moves u := by
  refine turn.advances ?_ h
  intro rest b
  rw [heap]
  exact (Advances.refl b).perm (List.Perm.refl _) (same.append_right rest)

theorem Turn.allocates {s u : KeyThreads} {t : Nat} {p q : Phase} (turn : Turn s u t p q)
    {x : Bytes} (heap : u.storage.heap=alloc s.storage.heap x)
    (more : (some s.storage.heap.length::(p.pointers++s.storage.pointers)).Perm
      (q.pointers++u.storage.pointers)) (h : s.Sound) : s.Moves u := by
  refine turn.advances ?_ h
  intro rest b
  rw [heap]
  exact (b.advances_alloc x).perm (List.Perm.refl _) (more.append_right rest)

theorem Turn.retains {s u : KeyThreads} {t : Nat} {p q : Phase} (turn : Turn s u t p q)
    {x : Option Nat} (heap : u.storage.heap=retain s.storage.heap x)
    (owned : x=none ∨ x∈p.pointers++s.storage.pointers)
    (more : (x::(p.pointers++s.storage.pointers)).Perm (q.pointers++u.storage.pointers))
    (h : s.Sound) : s.Moves u := by
  refine turn.advances ?_ h
  intro rest b
  rw [heap]
  have there : x=none ∨ x∈(p.pointers++s.storage.pointers)++rest :=
    owned.imp_right (fun hx => List.mem_append_left rest hx)
  exact (b.advances_retain there).perm (List.Perm.refl _) (more.append_right rest)

theorem Turn.releases {s u : KeyThreads} {t : Nat} {p q : Phase} (turn : Turn s u t p q)
    {x : Option Nat} (heap : u.storage.heap=release KeyMaterialStorage.erase s.storage.heap x)
    (less : (p.pointers++s.storage.pointers).Perm (x::(q.pointers++u.storage.pointers)))
    (h : s.Sound) : s.Moves u := by
  refine turn.advances ?_ h
  intro rest b
  rw [heap]
  have split := less.append_right rest
  exact (b.perm split).advances_release.perm split.symm (List.Perm.refl _)

theorem goTo_turn {s : KeyThreads} {t : Nat} {p : Phase} (hp : s.phases[t]?=some p)
    (S : KeyStorage) (o : Option Nat) (q : Phase) :
    Turn s (goTo ⟨S,o,s.phases⟩ t q) t p q := ⟨hp,rfl⟩

theorem setSlot_perm {s : KeyStorage} {i : Nat} {v : Option View} (hv : s.views[i]?=some v)
    (w : Option View) : (KeyStorage.held w::s.pointers).Perm
      (KeyStorage.held v::(setSlot s i w).pointers) := by
  have slots := perm_set KeyStorage.held hv w
  calc
    List.Perm _ (s.entries.map Entry.storage++KeyStorage.held w::s.views.map KeyStorage.held) :=
      List.perm_middle.symm
    List.Perm _ (s.entries.map Entry.storage++KeyStorage.held v::
        (s.views.set i w).map KeyStorage.held) := slots.append_left _
    List.Perm _ (KeyStorage.held v::(setSlot s i w).pointers) := List.perm_middle

theorem enter_moves {s : KeyThreads} (h : s.Sound) {t : Nat} {op : Operation}
    (hp : s.phases[t]?=some (.called op)) : s.Moves (s.enter t op) := by
  have ended : ∀ answer,s.Moves (s.goTo t (.returning [] answer)) := fun answer =>
    (goTo_turn hp s.storage s.owner (.returning [] answer)).passes rfl (List.Perm.refl _) h
  cases op with
  | add memory keyID algorithm key =>
    cases key with
    | null n => exact ended false
    | bytes b =>
      rw [enter]
      split_ifs
      · exact ended false
      · exact ended false
      · exact (goTo_turn hp {s.storage with heap := alloc s.storage.heap b} s.owner _).allocates rfl
          (List.Perm.refl _) h
  | remove keyID algorithm => exact (goTo_turn hp s.storage s.owner _).passes rfl (List.Perm.refl _) h
  | clear => exact (goTo_turn hp s.storage s.owner _).passes rfl (List.Perm.refl _) h
  | getKey i keyID algorithm =>
    rw [enter]
    split
    · rename_i v hv
      exact (goTo_turn hp (setSlot s.storage i (some {})) s.owner _).retains (x := none) rfl
        (Or.inl rfl) (setSlot_perm hv (some {})) h
    · exact ended false
  | declare =>
    refine (goTo_turn hp s.storage.declare s.owner _).retains (x := none) rfl (Or.inl rfl) ?_ h
    show (none::s.storage.pointers).Perm
      (s.storage.entries.map Entry.storage++(s.storage.views++[some ({} : View)]).map KeyStorage.held)
    rw [List.map_append,← List.append_assoc]
    exact (List.perm_append_singleton none s.storage.pointers).symm
  | copy i j =>
    rw [enter]
    split
    · rename_i v w hv hw
      exact (goTo_turn hp ⟨retain s.storage.heap v.storage,s.storage.entries,
        s.storage.views.set j (some v)⟩ s.owner _).retains rfl (Or.inr (KeyStorage.held_mem hv))
        (setSlot_perm hw (some v)) h
    · exact ended false
  | destroy i =>
    rw [enter]
    split
    · rename_i v hv
      exact (goTo_turn hp (setSlot s.storage i none) s.owner _).retains (x := none) rfl (Or.inl rfl)
        (setSlot_perm hv none) h
    · exact ended false

theorem perform_moves {s : KeyThreads} (h : s.Sound) {t : Nat} {c : Section}
    (hp : s.phases[t]?=some (.inside c)) : s.Moves (s.perform t c) := by
  cases c with
  | add memory keyID algorithm storage =>
    rw [perform]
    split
    · rename_i found hf
      obtain ⟨before,after,split,others⟩ := KeyStorage.findLocked_split hf
      have table : KeyedTable.modify Entry.pair found.pair (fun e => {e with storage := storage})
          (before++found::after)=before++{found with storage := storage}::after :=
        KeyedTable.modify_middle Entry.pair rfl others
      refine (goTo_turn hp ⟨s.storage.heap,KeyedTable.modify Entry.pair found.pair _
        s.storage.entries,s.storage.views⟩ s.owner _).passes rfl ?_ h
      have old := @KeyStorage.pointers_middle before after found
        (s.storage.views.map KeyStorage.held)
      have new := @KeyStorage.pointers_middle before after
        {found with storage := storage} (s.storage.views.map KeyStorage.held)
      show (storage::s.storage.pointers).Perm (found.storage::KeyStorage.pointers ⟨_,_,_⟩)
      rw [KeyStorage.pointers,KeyStorage.pointers,split,table]
      calc
        List.Perm _ (storage::found.storage::_) := old.cons _
        List.Perm _ (found.storage::storage::_) := List.Perm.swap _ _ _
        List.Perm _ (found.storage::_) := new.symm.cons _
    · split_ifs
      · exact (goTo_turn hp s.storage s.owner (.leaving [storage] [] false)).passes rfl
          (List.Perm.refl _) h
      · refine (goTo_turn hp ⟨s.storage.heap,s.storage.entries++[Entry.mk keyID algorithm storage],
          s.storage.views⟩ s.owner _).passes rfl ?_ h
        have new := @KeyStorage.pointers_middle s.storage.entries []
          (Entry.mk keyID algorithm storage) (s.storage.views.map KeyStorage.held)
        rw [List.append_nil] at new
        exact new.symm
  | remove keyID algorithm =>
    rw [perform]
    split
    · exact (goTo_turn hp s.storage s.owner (.leaving [] [] false)).passes rfl (List.Perm.refl _) h
    · rename_i found hf
      obtain ⟨before,after,split,others⟩ := KeyStorage.findLocked_split hf
      have table : KeyedTable.erase Entry.pair found.pair (before++found::after)=before++after :=
        KeyedTable.erase_middle Entry.pair rfl others
      refine (goTo_turn hp ⟨s.storage.heap,KeyedTable.erase Entry.pair found.pair
        s.storage.entries,s.storage.views⟩ s.owner _).passes rfl ?_ h
      show s.storage.pointers.Perm (found.storage::KeyStorage.pointers ⟨_,_,_⟩)
      rw [KeyStorage.pointers,KeyStorage.pointers,split,table]
      exact KeyStorage.pointers_middle found _
  | clear =>
    refine (goTo_turn hp ⟨s.storage.heap,[],s.storage.views⟩ s.owner _).passes rfl ?_ h
    exact List.Perm.refl s.storage.pointers
  | getKey i keyID algorithm =>
    rw [perform]
    split
    · exact (goTo_turn hp s.storage s.owner (.leaving [] [] false)).passes rfl (List.Perm.refl _) h
    · rename_i found hf
      split_ifs
      · exact (goTo_turn hp s.storage s.owner (.leaving [] [] false)).passes rfl
          (List.Perm.refl _) h
      · have owned := KeyStorage.entry_mem (KeyStorage.mem_of_findLocked hf)
        exact (goTo_turn hp ⟨retain s.storage.heap found.storage,s.storage.entries,s.storage.views⟩
          s.owner (.binding i found.keyID found.storage)).retains rfl (Or.inr owned)
          (List.Perm.refl _) h

/-- The view a thread is about to bind is still empty. -/
def Blank (s : KeyThreads) : Prop := ∀ (t i : Nat) (keyID : UInt32) (storage : Option Nat),
  s.phases[t]?=some (.binding i keyID storage) → s.storage.views[i]?=some (some {})

theorem advance_moves {s : KeyThreads} (h : s.Sound) (blank : s.Blank) (t : Nat) :
    s.Moves (s.advance t).1 := by
  rw [advance]
  split
  · exact Advances.refl h
  · exact Advances.refl h
  · rename_i op hp
    exact enter_moves h hp
  · rename_i i keyID algorithm old hp
    exact (goTo_turn hp (s.free old) s.owner _).releases rfl (List.Perm.refl _) h
  · rename_i c hp
    split_ifs
    · exact (goTo_turn hp s.storage (some t) (.inside c)).passes rfl (List.Perm.refl _) h
    · exact Advances.refl h
  · rename_i c hp
    exact perform_moves h hp
  · rename_i i keyID storage hp
    have empty := blank t i keyID storage hp
    exact (goTo_turn hp (setSlot s.storage i (some (s.bound keyID storage))) s.owner _).releases
      (x := none) rfl (setSlot_perm empty (some (s.bound keyID storage))) h
  · rename_i p now later answer hp
    exact (goTo_turn hp (s.free p) s.owner (.leaving now later answer)).releases rfl
      (List.Perm.refl _) h
  · rename_i later answer hp
    exact (goTo_turn hp s.storage none (.returning later answer)).passes rfl (List.Perm.refl _) h
  · rename_i p later answer hp
    exact (goTo_turn hp (s.free p) s.owner (.returning later answer)).releases rfl
      (List.Perm.refl _) h
  · rename_i answer hp
    exact (goTo_turn hp s.storage s.owner .idle).passes rfl (List.Perm.refl _) h

theorem step_moves {s : KeyThreads} (h : s.Sound) (blank : s.Blank) (x : Action) :
    s.Moves (s.step x).1 := by
  cases x with
  | call t op =>
    rw [step]
    split
    · rename_i hp
      split_ifs
      · exact (goTo_turn hp s.storage s.owner (.called op)).passes rfl (List.Perm.refl _) h
      · exact Advances.refl h
    · exact Advances.refl h
  | advance t => exact advance_moves h blank t

end KeyThreads
end ESPressioSecurity
