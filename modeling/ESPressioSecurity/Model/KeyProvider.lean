import ESPressioSecurity.Model.SecurityTypes
import ESPressioSecurity.Framework.KeyedTable

namespace ESPressioSecurity

open Framework

/-- An implementation of `IKeyProvider` as its lookups behave at one call. -/
structure IKeyProvider where
  getKey : UInt32 → AeadAlgorithm → Option KeyMaterialView

namespace StaticKeyProvider

structure Entry where
  keyID : UInt32
  algorithm : AeadAlgorithm
  storage : Bytes
  deriving DecidableEq,Repr

def Entry.pair (e : Entry) : UInt32×AeadAlgorithm := (e.keyID,e.algorithm)

end StaticKeyProvider

/-- `StaticKeyProvider`, its critical sections taken whole. Nothing writes a storage block after
`Add`, so an entry is modelled by the bytes its block holds; `KeyStorage` has the blocks. -/
structure StaticKeyProvider where
  entries : List StaticKeyProvider.Entry
  distinct : KeyedTable.Distinct StaticKeyProvider.Entry.pair entries

namespace StaticKeyProvider

def empty : StaticKeyProvider := ⟨[],List.nodup_nil⟩

def findLocked (p : StaticKeyProvider) (keyID : UInt32) (algorithm : AeadAlgorithm) :
    Option Entry :=
  KeyedTable.lookup Entry.pair (keyID,algorithm) p.entries

/-- Which of the two allocations of `Add` the memory system grants. -/
structure AddAllocation where
  storage : Bool := true
  entry : Bool := true

/-- The found entry publishes another storage block. -/
def replaceStorage (p : StaticKeyProvider) (keyID : UInt32) (algorithm : AeadAlgorithm)
    (b : Bytes) : StaticKeyProvider where
  entries := KeyedTable.modify Entry.pair (keyID,algorithm) (fun e => {e with storage := b}) p.entries
  distinct := by
    rw [KeyedTable.Distinct,KeyedTable.modify_keys]
    · exact p.distinct
    · exact fun _ => rfl

def pushEntry (p : StaticKeyProvider) (e : Entry) (h : p.findLocked e.keyID e.algorithm=none) :
    StaticKeyProvider :=
  ⟨p.entries++[e],KeyedTable.distinct_push Entry.pair p.distinct h⟩

def add (p : StaticKeyProvider) (memory : AddAllocation) (keyID : UInt32)
    (algorithm : AeadAlgorithm) (key : Span) : Bool×StaticKeyProvider :=
  match key with
  | .null _ => (false,p)
  | .bytes b =>
    if keyID=0 ∨ b.length=0 then (false,p)
    else if memory.storage=false then (false,p)
    else if h : p.findLocked keyID algorithm=none then
      if memory.entry=false then (false,p)
      else (true,p.pushEntry ⟨keyID,algorithm,b⟩ h)
    else (true,p.replaceStorage keyID algorithm b)

def remove (p : StaticKeyProvider) (keyID : UInt32) (algorithm : AeadAlgorithm) :
    Bool×StaticKeyProvider :=
  match p.findLocked keyID algorithm with
  | none => (false,p)
  | some _ => (true,⟨KeyedTable.erase Entry.pair (keyID,algorithm) p.entries,
      KeyedTable.distinct_erase _ p.distinct⟩)

def clear (_ : StaticKeyProvider) : StaticKeyProvider := empty

/-- `Bind` and the final `!key.Empty()` of `GetKey`. -/
def getKey (p : StaticKeyProvider) (keyID : UInt32) (algorithm : AeadAlgorithm) :
    Option KeyMaterialView :=
  match p.findLocked keyID algorithm with
  | none => none
  | some e => if e.storage=[] then none else some ⟨e.keyID,e.storage⟩

def toProvider (p : StaticKeyProvider) : IKeyProvider := ⟨p.getKey⟩

theorem findLocked_replaceStorage (p : StaticKeyProvider) (k j : UInt32) (a b : AeadAlgorithm)
    (v : Bytes) : (p.replaceStorage k a v).findLocked j b=
      if (j,b)=(k,a) then (p.findLocked j b).map (fun e => {e with storage := v})
      else p.findLocked j b :=
  KeyedTable.lookup_modify Entry.pair (j,b) (k,a) (fun e => {e with storage := v})
    (fun _ => rfl) p.entries

theorem findLocked_pushEntry (p : StaticKeyProvider) (e : Entry)
    (h : p.findLocked e.keyID e.algorithm=none) (j : UInt32) (b : AeadAlgorithm) :
    (p.pushEntry e h).findLocked j b=
      (p.findLocked j b).or (if e.pair=(j,b) then some e else none) :=
  KeyedTable.lookup_push Entry.pair (j,b) p.entries e

theorem findLocked_add_ne (p : StaticKeyProvider) (memory : AddAllocation) (k j : UInt32)
    (a b : AeadAlgorithm) (key : Span) (h : (j,b)≠(k,a)) :
    (p.add memory k a key).2.findLocked j b=p.findLocked j b := by
  cases key with
  | null n => rfl
  | bytes v =>
    rw [add]
    split_ifs with h0 h1 h2 h3
    · rfl
    · rfl
    · rfl
    · have ne : Entry.pair ⟨k,a,v⟩≠(j,b) := Ne.symm h
      rw [findLocked_pushEntry,if_neg ne,Option.or_none]
    · rw [findLocked_replaceStorage,if_neg h]

theorem findLocked_remove_ne (p : StaticKeyProvider) (k j : UInt32) (a b : AeadAlgorithm)
    (h : (j,b)≠(k,a)) : (p.remove k a).2.findLocked j b=p.findLocked j b := by
  unfold remove
  split
  · rfl
  · exact KeyedTable.lookup_erase_ne _ h p.entries

theorem remove_none {p : StaticKeyProvider} {k : UInt32} {a : AeadAlgorithm}
    (h : p.findLocked k a=none) : p.remove k a=(false,p) := by
  unfold remove
  split
  · rfl
  · rename_i found
    rw [h] at found
    exact absurd found (by simp)

theorem remove_some {p : StaticKeyProvider} {k : UInt32} {a : AeadAlgorithm} {e : Entry}
    (h : p.findLocked k a=some e) : (p.remove k a).1=true ∧
      (p.remove k a).2.entries=KeyedTable.erase Entry.pair (k,a) p.entries := by
  unfold remove
  split
  · rename_i found
    rw [h] at found
    exact absurd found (by simp)
  · exact ⟨rfl,rfl⟩

theorem getKey_add_ne (p : StaticKeyProvider) (memory : AddAllocation) (k j : UInt32)
    (a b : AeadAlgorithm) (key : Span) (h : (j,b)≠(k,a)) :
    (p.add memory k a key).2.getKey j b=p.getKey j b := by
  rw [getKey,getKey,findLocked_add_ne p memory k j a b key h]

theorem getKey_remove_ne (p : StaticKeyProvider) (k j : UInt32) (a b : AeadAlgorithm)
    (h : (j,b)≠(k,a)) : (p.remove k a).2.getKey j b=p.getKey j b := by
  rw [getKey,getKey,findLocked_remove_ne p k j a b h]

end StaticKeyProvider
end ESPressioSecurity
