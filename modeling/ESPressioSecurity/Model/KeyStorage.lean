import ESPressioSecurity.Framework.Machine
import ESPressioSecurity.Framework.SharedHeap
import ESPressioSecurity.Model.KeyProvider

namespace ESPressioSecurity

open Framework SharedHeap

namespace KeyMaterialStorage

/-- The loop of `~KeyMaterialStorage`. -/
def erase (bytes : Bytes) : Bytes :=
  (List.range bytes.length).foldl (fun b index => b.set index 0) bytes

theorem erase_upto (bytes : Bytes) (n : Nat) (hn : n≤bytes.length) :
    (List.range n).foldl (fun b index => b.set index 0) bytes=
      List.replicate n 0++bytes.drop n := by
  induction n with
  | zero => rfl
  | succ n ih =>
    have next : bytes.drop n=bytes.get ⟨n,hn⟩::bytes.drop (n+1) := List.drop_eq_getElem_cons hn
    have place : (List.replicate n (0 : UInt8)).length≤n := Nat.le_of_eq List.length_replicate
    rw [List.range_succ,List.foldl_append,ih (Nat.le_of_succ_le hn),next,List.replicate_succ',
      List.append_assoc]
    show (List.replicate n 0++bytes.get ⟨n,hn⟩::bytes.drop (n+1)).set n 0=_
    rw [List.set_append_right _ _ place,List.length_replicate,Nat.sub_self]
    rfl

theorem erase_eq (bytes : Bytes) : erase bytes=List.replicate bytes.length 0 := by
  have whole := erase_upto bytes bytes.length (Nat.le_refl _)
  rw [List.drop_length,List.append_nil] at whole
  exact whole

end KeyMaterialStorage

namespace KeyStorage

structure Entry where
  keyID : UInt32
  algorithm : AeadAlgorithm
  storage : Option Nat
  deriving DecidableEq,Repr

def Entry.pair (e : Entry) : UInt32×AeadAlgorithm := (e.keyID,e.algorithm)

/-- `KeyMaterialView` with its pointers: `data` points to the bytes of a block and `storage` owns a
block. -/
structure View where
  keyID : UInt32 := 0
  data : Option Nat := none
  size : Nat := 0
  storage : Option Nat := none
  deriving DecidableEq,Repr

def bytesAt (heap : List (Cell Bytes)) : Option Nat → Bytes
  | none => []
  | some a => (content heap a).getD []

/-- What a client reads through a view. -/
def View.exposes (heap : List (Cell Bytes)) (v : View) : KeyMaterialView :=
  ⟨v.keyID,(bytesAt heap v.data).take v.size⟩

def View.isEmpty (v : View) : Bool := v.data==none || v.size==0

/-- `Bind`; its argument is a copy of the pointer it is given. -/
def View.bind (heap : List (Cell Bytes)) (v : View) (keyID : UInt32) (storage : Option Nat) :
    List (Cell Bytes)×View :=
  let heap := release KeyMaterialStorage.erase (retain heap storage) v.storage
  let bytes := bytesAt heap storage
  (heap,⟨keyID,if bytes=[] then none else storage,bytes.length,storage⟩)

end KeyStorage

/-- A `StaticKeyProvider` and the views its clients hold, over the blocks they share. A view that was
destroyed leaves an empty slot. -/
structure KeyStorage where
  heap : List (Cell Bytes)
  entries : List KeyStorage.Entry
  views : List (Option KeyStorage.View)

namespace KeyStorage

def empty : KeyStorage := ⟨[],[],[]⟩

def findLocked (s : KeyStorage) (keyID : UInt32) (algorithm : AeadAlgorithm) : Option Entry :=
  KeyedTable.lookup Entry.pair (keyID,algorithm) s.entries

/-- The found entry takes the new block in the place of its own. -/
def replaceStorage (s : KeyStorage) (found : Entry) (b : Bytes) : KeyStorage :=
  {s with
    heap := release KeyMaterialStorage.erase (alloc s.heap b) found.storage
    entries := KeyedTable.modify Entry.pair found.pair
      (fun e => {e with storage := some s.heap.length}) s.entries}

def pushEntry (s : KeyStorage) (keyID : UInt32) (algorithm : AeadAlgorithm) (b : Bytes) :
    KeyStorage :=
  {s with
    heap := alloc s.heap b
    entries := s.entries++[⟨keyID,algorithm,some s.heap.length⟩]}

/-- The new block goes with the entry that `push_back` had no room for. -/
def discard (s : KeyStorage) (b : Bytes) : KeyStorage :=
  {s with heap := release KeyMaterialStorage.erase (alloc s.heap b) (some s.heap.length)}

/-- `Add`, with the block allocated before the lock is taken. -/
def add (s : KeyStorage) (memory : StaticKeyProvider.AddAllocation) (keyID : UInt32)
    (algorithm : AeadAlgorithm) (key : Span) : KeyStorage×Bool :=
  match key with
  | .null _ => (s,false)
  | .bytes b =>
    if keyID=0 ∨ b.length=0 then (s,false)
    else if memory.storage=false then (s,false)
    else match s.findLocked keyID algorithm with
      | some found => (s.replaceStorage found b,true)
      | none =>
        if memory.entry=false then (s.discard b,false)
        else (s.pushEntry keyID algorithm b,true)

def eraseEntry (s : KeyStorage) (found : Entry) : KeyStorage :=
  {s with
    heap := release KeyMaterialStorage.erase s.heap found.storage
    entries := KeyedTable.erase Entry.pair found.pair s.entries}

def remove (s : KeyStorage) (keyID : UInt32) (algorithm : AeadAlgorithm) : KeyStorage×Bool :=
  match s.findLocked keyID algorithm with
  | none => (s,false)
  | some found => (s.eraseEntry found,true)

/-- `Clear`: the entries are swapped out and released one after the other. -/
def clear (s : KeyStorage) : KeyStorage :=
  {s with
    heap := (s.entries.map Entry.storage).foldl (release KeyMaterialStorage.erase) s.heap
    entries := []}

/-- The view `v` in slot `i` gives up its block for that of `w`, or goes altogether. -/
def setView (s : KeyStorage) (i : Nat) (v : View) (w : Option View) : KeyStorage :=
  {s with
    heap := release KeyMaterialStorage.erase (retain s.heap (w.bind View.storage)) v.storage
    views := s.views.set i w}

/-- `Bind` on the view in slot `i`, which has just been emptied. -/
def bindView (s : KeyStorage) (i : Nat) (found : Entry) : KeyStorage×Bool :=
  let o := View.bind s.heap {} found.keyID found.storage
  ({s with heap := o.1,views := s.views.set i (some o.2)},!o.2.isEmpty)

/-- `GetKey` into the view in slot `i`, which lets go of what it held before the table is
searched. -/
def getKey (s : KeyStorage) (i : Nat) (keyID : UInt32) (algorithm : AeadAlgorithm) :
    KeyStorage×Bool :=
  match s.views[i]? with
  | some (some v) =>
    let s := s.setView i v (some {})
    match s.findLocked keyID algorithm with
    | none => (s,false)
    | some found => if found.storage=none then (s,false) else s.bindView i found
  | _ => (s,false)

/-- A client constructs an empty view. -/
def declare (s : KeyStorage) : KeyStorage := {s with views := s.views++[some {}]}

/-- The view in slot `j` is assigned the one in slot `i`. -/
def copy (s : KeyStorage) (i j : Nat) : KeyStorage×Bool :=
  match s.views[i]?,s.views[j]? with
  | some (some v),some (some w) => (s.setView j w (some v),true)
  | _,_ => (s,false)

def destroy (s : KeyStorage) (i : Nat) : KeyStorage×Bool :=
  match s.views[i]? with
  | some (some v) => (s.setView i v none,true)
  | _ => (s,false)

/-- What clients do with the provider and their views, each operation taken whole. -/
inductive Operation
  | add (memory : StaticKeyProvider.AddAllocation) (keyID : UInt32) (algorithm : AeadAlgorithm)
      (key : Span)
  | remove (keyID : UInt32) (algorithm : AeadAlgorithm)
  | clear
  | getKey (i : Nat) (keyID : UInt32) (algorithm : AeadAlgorithm)
  | declare
  | copy (i j : Nat)
  | destroy (i : Nat)

def step (s : KeyStorage) : Operation → KeyStorage×Bool
  | .add memory keyID algorithm key => s.add memory keyID algorithm key
  | .remove keyID algorithm => s.remove keyID algorithm
  | .clear => (s.clear,true)
  | .getKey i keyID algorithm => s.getKey i keyID algorithm
  | .declare => (s.declare,true)
  | .copy i j => s.copy i j
  | .destroy i => s.destroy i

def machine : Machine KeyStorage Operation Bool := ⟨step⟩

/-! ### Owners -/

def held (v : Option View) : Option Nat := v.bind View.storage

/-- The pointers that own blocks: those of the entries and those of the views. -/
def pointers (s : KeyStorage) : List (Option Nat) :=
  s.entries.map Entry.storage++s.views.map held

def Sound (s : KeyStorage) : Prop := Balanced KeyMaterialStorage.erase s.heap s.pointers

/-- The owners change only as the blocks do. -/
def Moves (s t : KeyStorage) : Prop :=
  Advances KeyMaterialStorage.erase s.heap s.pointers t.heap t.pointers

theorem empty_sound : empty.Sound := balanced_nil _

theorem moves_refl {s : KeyStorage} (h : s.Sound) : s.Moves s := Advances.refl h

/-- The entry a search found, with the pointers beside it. -/
theorem findLocked_split {s : KeyStorage} {keyID : UInt32} {algorithm : AeadAlgorithm} {e : Entry}
    (found : s.findLocked keyID algorithm=some e) :
    ∃ before after,s.entries=before++e::after ∧ ∀y∈before,y.pair≠e.pair := by
  obtain ⟨before,after,split,pair,others⟩ := KeyedTable.lookup_split Entry.pair found
  refine ⟨before,after,split,?_⟩
  rw [pair]
  exact others

theorem replaceStorage_split {s : KeyStorage} {keyID : UInt32} {algorithm : AeadAlgorithm}
    {e : Entry} (found : s.findLocked keyID algorithm=some e) (b : Bytes) :
    ∃ before after,s.entries=before++e::after ∧ (∀y∈before,y.pair≠e.pair) ∧
      (s.replaceStorage e b).entries=
        before++{e with storage := some s.heap.length}::after := by
  obtain ⟨before,after,split,others⟩ := findLocked_split found
  refine ⟨before,after,split,others,?_⟩
  rw [replaceStorage,split]
  exact KeyedTable.modify_middle Entry.pair rfl others

theorem eraseEntry_split {s : KeyStorage} {keyID : UInt32} {algorithm : AeadAlgorithm} {e : Entry}
    (found : s.findLocked keyID algorithm=some e) :
    ∃ before after,s.entries=before++e::after ∧ (∀y∈before,y.pair≠e.pair) ∧
      (s.eraseEntry e).entries=before++after := by
  obtain ⟨before,after,split,others⟩ := findLocked_split found
  refine ⟨before,after,split,others,?_⟩
  rw [eraseEntry,split]
  exact KeyedTable.erase_middle Entry.pair rfl others

theorem pointers_middle {before after : List Entry} (e : Entry) (vs : List (Option Nat)) :
    ((before++e::after).map Entry.storage++vs).Perm
      (e.storage::((before++after).map Entry.storage++vs)) := by
  simp

theorem replaceStorage_moves {s : KeyStorage} (h : s.Sound) {keyID : UInt32}
    {algorithm : AeadAlgorithm} {e : Entry} (found : s.findLocked keyID algorithm=some e)
    (b : Bytes) : s.Moves (s.replaceStorage e b) := by
  obtain ⟨before,after,split,_,table⟩ := replaceStorage_split found b
  let e' : Entry := {e with storage := some s.heap.length}
  have swap : (some s.heap.length::s.pointers).Perm
      (e.storage::(s.replaceStorage e b).pointers) := by
    rw [pointers,pointers,table,split]
    calc
      List.Perm _ (some s.heap.length::e.storage::_) := (pointers_middle e _).cons _
      List.Perm _ (e.storage::some s.heap.length::_) := List.Perm.swap _ _ _
      List.Perm _ (e.storage::_) := (pointers_middle e' _).symm.cons _
  have placed := (Balanced.advances_alloc h b).perm (List.Perm.refl _) swap
  exact placed.trans placed.balanced.advances_release

theorem pushEntry_moves {s : KeyStorage} (h : s.Sound) (keyID : UInt32)
    (algorithm : AeadAlgorithm) (b : Bytes) : s.Moves (s.pushEntry keyID algorithm b) := by
  let e : Entry := ⟨keyID,algorithm,some s.heap.length⟩
  have middle : ((s.entries++[e]).map Entry.storage++s.views.map held).Perm
      (e.storage::((s.entries++[]).map Entry.storage++s.views.map held)) := pointers_middle e _
  rw [List.append_nil] at middle
  exact (Balanced.advances_alloc h b).perm (List.Perm.refl _) middle.symm

theorem discard_moves {s : KeyStorage} (h : s.Sound) (b : Bytes) : s.Moves (s.discard b) := by
  have placed := Balanced.advances_alloc h b
  exact placed.trans placed.balanced.advances_release

theorem eraseEntry_moves {s : KeyStorage} (h : s.Sound) {keyID : UInt32}
    {algorithm : AeadAlgorithm} {e : Entry} (found : s.findLocked keyID algorithm=some e) :
    s.Moves (s.eraseEntry e) := by
  obtain ⟨before,after,split,_,table⟩ := eraseEntry_split found
  have out : s.pointers.Perm (e.storage::(s.eraseEntry e).pointers) := by
    rw [pointers,pointers,table,split]
    exact pointers_middle e _
  have held := (Advances.refl h).perm (List.Perm.refl _) out
  exact held.trans held.balanced.advances_release

theorem clear_moves {s : KeyStorage} (h : s.Sound) : s.Moves s.clear :=
  Balanced.advances_releases (s.entries.map Entry.storage) (s.views.map held) h

theorem setView_moves {s : KeyStorage} (h : s.Sound) {i : Nat} {v : View}
    (hv : s.views[i]?=some (some v)) {w : Option View}
    (hw : held w=none ∨ held w∈s.pointers) : s.Moves (s.setView i v w) := by
  have slots : (held w::s.views.map held).Perm (v.storage::(s.views.set i w).map held) :=
    perm_set held hv w
  have swap : (held w::s.pointers).Perm (v.storage::(s.setView i v w).pointers) := by
    calc
      List.Perm _ (s.entries.map Entry.storage++held w::s.views.map held) :=
        List.perm_middle.symm
      List.Perm _ (s.entries.map Entry.storage++v.storage::(s.views.set i w).map held) :=
        slots.append_left _
      List.Perm _ (v.storage::(s.setView i v w).pointers) := List.perm_middle
  exact Balanced.advances_assign h hw swap

theorem bindView_moves {s : KeyStorage} (h : s.Sound) {i : Nat} (hv : s.views[i]?=some (some {}))
    {e : Entry} (he : e∈s.entries) : s.Moves (s.bindView i e).1 := by
  have owned : e.storage∈s.pointers :=
    List.mem_append_left _ (List.mem_map_of_mem he)
  exact setView_moves h hv (w := (View.bind s.heap {} e.keyID e.storage).2) (Or.inr owned)

theorem mem_of_findLocked {s : KeyStorage} {keyID : UInt32} {algorithm : AeadAlgorithm} {e : Entry}
    (found : s.findLocked keyID algorithm=some e) : e∈s.entries :=
  (KeyedTable.lookup_key Entry.pair found).1

theorem setView_slot {s : KeyStorage} {i : Nat} {v : View} (hv : s.views[i]?=some (some v))
    (w : Option View) : (s.setView i v w).views[i]?=some w := by
  obtain ⟨hi,_⟩ := List.getElem?_eq_some_iff.mp hv
  exact List.getElem?_set_self hi

theorem held_mem {s : KeyStorage} {i : Nat} {v : View} (hv : s.views[i]?=some (some v)) :
    v.storage∈s.pointers :=
  List.mem_append_right _ (List.mem_map.mpr ⟨some v,List.mem_of_getElem? hv,rfl⟩)

theorem declare_moves {s : KeyStorage} (h : s.Sound) : s.Moves s.declare := by
  have null := Balanced.advances_retain h (p := none) (Or.inl rfl)
  refine null.perm (List.Perm.refl _) ?_
  show (none::s.pointers).Perm (s.entries.map Entry.storage++(s.views++[some ({} : View)]).map held)
  rw [List.map_append,← List.append_assoc]
  exact (List.perm_append_singleton none s.pointers).symm

/-- Every operation moves owners and blocks together. -/
theorem step_moves {s : KeyStorage} (h : s.Sound) (op : Operation) : s.Moves (s.step op).1 := by
  cases op with
  | add memory keyID algorithm key =>
    show s.Moves (s.add memory keyID algorithm key).1
    cases key with
    | null n => exact moves_refl h
    | bytes b =>
      rw [add]
      by_cases hb : keyID=0 ∨ b.length=0
      · rw [if_pos hb]
        exact moves_refl h
      by_cases hs : memory.storage=false
      · rw [if_neg hb,if_pos hs]
        exact moves_refl h
      rw [if_neg hb,if_neg hs]
      cases found : s.findLocked keyID algorithm with
      | some e => exact replaceStorage_moves h found b
      | none =>
        dsimp only
        split_ifs with he
        · exact discard_moves h b
        · exact pushEntry_moves h keyID algorithm b
  | remove keyID algorithm =>
    show s.Moves (s.remove keyID algorithm).1
    rw [remove]
    cases found : s.findLocked keyID algorithm with
    | none => exact moves_refl h
    | some e => exact eraseEntry_moves h found
  | clear => exact clear_moves h
  | getKey i keyID algorithm =>
    show s.Moves (s.getKey i keyID algorithm).1
    rw [getKey]
    split
    · rename_i v hv
      have reset := setView_moves h hv (w := some {}) (Or.inl rfl)
      dsimp only
      cases found : (s.setView i v (some {})).findLocked keyID algorithm with
      | none => exact reset
      | some e =>
        dsimp only
        split_ifs
        · exact reset
        · exact reset.trans (bindView_moves reset.balanced (setView_slot hv _)
            (mem_of_findLocked found))
    · exact moves_refl h
  | declare => exact declare_moves h
  | copy i j =>
    show s.Moves (s.copy i j).1
    rw [copy]
    split
    · rename_i v w hv hw
      exact setView_moves h hw (Or.inr (held_mem hv))
    · exact moves_refl h
  | destroy i =>
    show s.Moves (s.destroy i).1
    rw [destroy]
    split
    · rename_i v hv
      exact setView_moves h hv (Or.inl rfl)
    · exact moves_refl h

theorem run_sound (ops : List Operation) : (machine.after empty ops).Sound :=
  machine.invariant_state (I := Sound) ops empty_sound (fun _ op _ h => (step_moves h op).balanced)

end KeyStorage
end ESPressioSecurity
