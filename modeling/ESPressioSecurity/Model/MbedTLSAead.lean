import Mathlib.Data.List.Induction
import ESPressioSecurity.Model.Host

namespace ESPressioSecurity

open Framework

/-- The functions of one mbedTLS mode; a context holds a `χ`. `setkey`, `encryptAndTag` and
`authDecrypt` answer whether the library returned zero. The pointers that no adapter looks at reach
the library as they came, null or not. -/
structure MbedTLSMode (χ : Type) where
  init : χ
  setkey : χ → (key : Span) → Bool×χ
  encryptAndTag : χ → (nonce aad : Span) → (plaintext : Bytes) → (tagSize : Nat) →
    SealOutcome plaintext.length tagSize
  authDecrypt : χ → (nonce aad : Span) → (ciphertext tag : Bytes) → OpenOutcome ciphertext.length

/-- A call of the library, with the sizes it is told and the storage it is handed. -/
inductive LibraryCall
  | init
  | setkey (bits : Nat) (key : Span) (ok : Bool)
  | encryptAndTag (length : Nat) (nonce : Span) (nonceSize : Nat) (aad : Span) (aadSize : Nat)
    (input output tag : Span) (tagSize : Nat)
  | authDecrypt (length : Nat) (nonce : Span) (nonceSize : Nat) (aad : Span) (aadSize : Nat)
    (input tag : Span) (tagSize : Nat) (output : Span)
  | free
  deriving DecidableEq,Repr

/-- Bytes written to the start of what a pointer points to. -/
def Span.store (s : Span) (v : Bytes) : Span :=
  match s with
  | null n => .null n
  | bytes b => .bytes (overwrite b 0 v)

def Span.isNull : Span → Bool
  | null _ => true
  | bytes _ => false

/-- An adapter from one mode of the library to `IAeadCipher`. -/
structure MbedTLSAdapter where
  {context : Type}
  mode : MbedTLSMode context
  algorithm : AeadAlgorithm
  keyBytes : Nat

namespace MbedTLSAdapter

def nonceSize : Nat := 12

def tagSize : Nat := 16

structure SealResult where
  ok : Bool
  ciphertext : Span
  tag : Span
  calls : List LibraryCall

structure OpenResult where
  ok : Bool
  plaintext : Span
  calls : List LibraryCall

def sealInto (a : MbedTLSAdapter) (key nonce aad plaintext ciphertext tag : Span) : SealResult :=
  if key.size≠a.keyBytes ∨ nonce.size≠nonceSize ∨ ciphertext.size<plaintext.size ∨
      tag.size<tagSize ∨
      (plaintext.size≠0 ∧ (plaintext.isNull=true ∨ ciphertext.isNull=true)) ∨ tag.isNull=true then
    ⟨false,ciphertext,tag,[]⟩
  else
    let k := a.mode.setkey a.mode.init key
    let keyed : List LibraryCall := [.init,.setkey (a.keyBytes*8) key k.1]
    if k.1 then
      let o := a.mode.encryptAndTag k.2 nonce aad plaintext.content tagSize
      ⟨o.ok,ciphertext.store o.ciphertext.val,tag.store o.tag.val,
        keyed++[.encryptAndTag plaintext.size nonce nonce.size aad aad.size plaintext ciphertext tag
          tagSize,.free]⟩
    else ⟨false,ciphertext,tag,keyed++[.free]⟩

def openInto (a : MbedTLSAdapter) (key nonce aad ciphertext tag plaintext : Span) : OpenResult :=
  if key.size≠a.keyBytes ∨ nonce.size≠nonceSize ∨ tag.size≠tagSize ∨
      plaintext.size<ciphertext.size ∨
      (ciphertext.size≠0 ∧ (ciphertext.isNull=true ∨ plaintext.isNull=true)) ∨
      tag.isNull=true then
    ⟨false,plaintext,[]⟩
  else
    let k := a.mode.setkey a.mode.init key
    let keyed : List LibraryCall := [.init,.setkey (a.keyBytes*8) key k.1]
    if k.1 then
      let o := a.mode.authDecrypt k.2 nonce aad ciphertext.content tag.content
      ⟨o.ok,plaintext.store o.plaintext.val,
        keyed++[.authDecrypt ciphertext.size nonce nonce.size aad aad.size ciphertext tag tag.size
          plaintext,.free]⟩
    else ⟨false,plaintext,keyed++[.free]⟩

/-! ### How the library is used -/

/-- What the one context of a call is fit for. -/
inductive Context
  | absent
  | fresh
  | keyed
  | spent
  deriving DecidableEq,Repr

/-- A context is set up, given a key, used once under a key that was taken, and freed. -/
def Context.next : Context → LibraryCall → Option Context
  | absent,.init => some fresh
  | fresh,.setkey _ _ ok => some (if ok then keyed else spent)
  | keyed,.encryptAndTag _ _ _ _ _ _ _ _ _ => some spent
  | keyed,.authDecrypt _ _ _ _ _ _ _ _ _ => some spent
  | spent,.free => some absent
  | _,_ => none

/-- The library reads and writes only what it was handed: there is as much of the key, the nonce and
the associated data as it is told, and storage for what it is told to process. -/
def InBounds : LibraryCall → Prop
  | .init => True
  | .setkey bits key _ => bits=8*key.content.length
  | .encryptAndTag length nonce nonceSize aad aadSize input output tag tagSize =>
    nonce.content.length=nonceSize ∧ aad.content.length=aadSize ∧ input.content.length=length ∧
      length≤output.content.length ∧ tagSize≤tag.content.length
  | .authDecrypt length nonce nonceSize aad aadSize input tag tagSize output =>
    nonce.content.length=nonceSize ∧ aad.content.length=aadSize ∧ input.content.length=length ∧
      length≤output.content.length ∧ tag.content.length=tagSize
  | .free => True

inductive Request
  | aeadSeal (key nonce aad plaintext ciphertext tag : Span)
  | aeadOpen (key nonce aad ciphertext tag plaintext : Span)

def Request.key : Request → Span
  | .aeadSeal key _ _ _ _ _ => key
  | .aeadOpen key _ _ _ _ _ => key

def Request.nonce : Request → Span
  | .aeadSeal _ nonce _ _ _ _ => nonce
  | .aeadOpen _ nonce _ _ _ _ => nonce

def Request.aad : Request → Span
  | .aeadSeal _ _ aad _ _ _ => aad
  | .aeadOpen _ _ aad _ _ _ => aad

def calls (a : MbedTLSAdapter) : Request → List LibraryCall
  | .aeadSeal key nonce aad plaintext ciphertext tag =>
    (a.sealInto key nonce aad plaintext ciphertext tag).calls
  | .aeadOpen key nonce aad ciphertext tag plaintext =>
    (a.openInto key nonce aad ciphertext tag plaintext).calls

/-- The request gets past the guards of `Seal` or `Open`. They look at no pointer to a key, a nonce
or associated data. -/
def Passes (a : MbedTLSAdapter) : Request → Prop
  | .aeadSeal key nonce _ plaintext ciphertext tag =>
    key.size=a.keyBytes ∧ nonce.size=nonceSize ∧ plaintext.size≤ciphertext.size ∧
      tagSize≤tag.size ∧ (plaintext.size=0 ∨ plaintext.isNull=false ∧ ciphertext.isNull=false) ∧
      tag.isNull=false
  | .aeadOpen key nonce _ ciphertext tag plaintext =>
    key.size=a.keyBytes ∧ nonce.size=nonceSize ∧ tag.size=tagSize ∧
      ciphertext.size≤plaintext.size ∧
      (ciphertext.size=0 ∨ ciphertext.isNull=false ∧ plaintext.isNull=false) ∧ tag.isNull=false

/-- The caller's part: a request that gets past the guards comes with a key, and where the library
takes the key also with a nonce and associated data, that are not null unless they are empty. -/
def Provided (a : MbedTLSAdapter) (request : Request) : Prop :=
  a.Passes request → request.key.invalid=false ∧
    ((a.mode.setkey a.mode.init request.key).1=true →
      request.nonce.invalid=false ∧ request.aad.invalid=false)

/-- What one request may make of the library: nothing, or one context that is set up, given the key,
used where the library took the key, and freed. -/
structure OneUse (a : MbedTLSAdapter) (request : Request) : Prop where
  stopped : ¬a.Passes request → a.calls request=[]
  refused : a.Passes request → (a.mode.setkey a.mode.init request.key).1=false →
    a.calls request=[.init,.setkey (a.keyBytes*8) request.key false,.free]
  used : a.Passes request → (a.mode.setkey a.mode.init request.key).1=true → ∃ use,
    a.calls request=[.init,.setkey (a.keyBytes*8) request.key true,use,.free] ∧
    Context.next .keyed use=some .spent ∧
    (InBounds use ↔ request.nonce.invalid=false ∧ request.aad.invalid=false)

/-- There is as much behind a pointer as it is told, if it is not null or that is nothing. -/
theorem content_size (s : Span) : s.content.length=s.size ↔ s.invalid=false := by
  cases s with
  | null n =>
    simp only [Span.content,Span.size,Span.invalid,List.length_nil,ne_eq,decide_eq_false_iff_not,
      Decidable.not_not]
    exact eq_comm
  | bytes b => exact ⟨fun _ => rfl,fun _ => rfl⟩

theorem invalid_of_isNull {s : Span} (h : s.isNull=false) : s.invalid=false := by
  cases s with
  | null n => exact Bool.noConfusion h
  | bytes b => rfl

theorem invalid_of_empty {s : Span} (h : s.size=0) : s.invalid=false := by
  cases s with
  | null n => simpa [Span.invalid,Span.size] using h
  | bytes b => rfl

/-- What the guards on pointers and capacities leave: input as long as it says and room for it. -/
theorem guarded_sizes {input output : Span} (capacity : input.size≤output.size)
    (pointers : input.size=0 ∨ input.isNull=false ∧ output.isNull=false) :
    input.content.length=input.size ∧ input.size≤output.content.length := by
  rcases pointers with zero|⟨source,target⟩
  · exact ⟨(content_size input).mpr (invalid_of_empty zero),by omega⟩
  · refine ⟨(content_size input).mpr (invalid_of_isNull source),?_⟩
    rw [(content_size output).mpr (invalid_of_isNull target)]
    exact capacity

theorem sealInto_use (a : MbedTLSAdapter) (key nonce aad plaintext ciphertext tag : Span) :
    a.OneUse (.aeadSeal key nonce aad plaintext ciphertext tag) := by
  have guard : (key.size≠a.keyBytes ∨ nonce.size≠nonceSize ∨ ciphertext.size<plaintext.size ∨
      tag.size<tagSize ∨ (plaintext.size≠0 ∧ (plaintext.isNull=true ∨ ciphertext.isNull=true)) ∨
      tag.isNull=true) ↔ ¬a.Passes (.aeadSeal key nonce aad plaintext ciphertext tag) := by
    rw [Passes]
    grind
  refine ⟨?_,?_,?_⟩
  · intro stopped
    rw [calls,sealInto,if_pos (guard.mpr stopped)]
  · intro passes refused
    have refused : (a.mode.setkey a.mode.init key).1=false := refused
    rw [calls,sealInto,if_neg (fun h => guard.mp h passes)]
    simp [refused,Request.key]
  · intro passes taken
    have taken : (a.mode.setkey a.mode.init key).1=true := taken
    refine ⟨.encryptAndTag plaintext.size nonce nonce.size aad aad.size plaintext ciphertext tag
      tagSize,?_,rfl,?_⟩
    · rw [calls,sealInto,if_neg (fun h => guard.mp h passes)]
      simp [taken,Request.key]
    · obtain ⟨_,_,capacity,tagCapacity,pointers,tagThere⟩ := passes
      obtain ⟨input,output⟩ := guarded_sizes capacity pointers
      have room : tagSize≤tag.content.length := by
        rw [(content_size tag).mpr (invalid_of_isNull tagThere)]
        exact tagCapacity
      simp only [InBounds,content_size,Request.nonce,Request.aad]
      exact ⟨fun h => ⟨h.1,h.2.1⟩,fun h => ⟨h.1,h.2,(content_size plaintext).mp input,output,room⟩⟩

theorem openInto_use (a : MbedTLSAdapter) (key nonce aad ciphertext tag plaintext : Span) :
    a.OneUse (.aeadOpen key nonce aad ciphertext tag plaintext) := by
  have guard : (key.size≠a.keyBytes ∨ nonce.size≠nonceSize ∨ tag.size≠tagSize ∨
      plaintext.size<ciphertext.size ∨
      (ciphertext.size≠0 ∧ (ciphertext.isNull=true ∨ plaintext.isNull=true)) ∨ tag.isNull=true) ↔
      ¬a.Passes (.aeadOpen key nonce aad ciphertext tag plaintext) := by
    rw [Passes]
    grind
  refine ⟨?_,?_,?_⟩
  · intro stopped
    rw [calls,openInto,if_pos (guard.mpr stopped)]
  · intro passes refused
    have refused : (a.mode.setkey a.mode.init key).1=false := refused
    rw [calls,openInto,if_neg (fun h => guard.mp h passes)]
    simp [refused,Request.key]
  · intro passes taken
    have taken : (a.mode.setkey a.mode.init key).1=true := taken
    refine ⟨.authDecrypt ciphertext.size nonce nonce.size aad aad.size ciphertext tag tag.size
      plaintext,?_,rfl,?_⟩
    · rw [calls,openInto,if_neg (fun h => guard.mp h passes)]
      simp [taken,Request.key]
    · obtain ⟨_,_,_,capacity,pointers,tagThere⟩ := passes
      obtain ⟨input,output⟩ := guarded_sizes capacity pointers
      simp only [InBounds,content_size,Request.nonce,Request.aad]
      exact ⟨fun h => ⟨h.1,h.2.1⟩,fun h => ⟨h.1,h.2,(content_size ciphertext).mp input,output,
        invalid_of_isNull tagThere⟩⟩

theorem calls_use (a : MbedTLSAdapter) (request : Request) : a.OneUse request := by
  cases request with
  | aeadSeal key nonce aad plaintext ciphertext tag =>
    exact a.sealInto_use key nonce aad plaintext ciphertext tag
  | aeadOpen key nonce aad ciphertext tag plaintext =>
    exact a.openInto_use key nonce aad ciphertext tag plaintext

/-- One request leaves no context behind. -/
theorem OneUse.closed {a : MbedTLSAdapter} {request : Request} (h : a.OneUse request) :
    (a.calls request).foldlM Context.next .absent=some .absent := by
  by_cases passes : a.Passes request
  · cases taken : (a.mode.setkey a.mode.init request.key).1 with
    | false =>
      rw [h.refused passes taken]
      rfl
    | true =>
      obtain ⟨use,same,fits,_⟩ := h.used passes taken
      rw [same]
      show (Context.next .keyed use >>= _)=_
      rw [fits]
      rfl
  · rw [h.stopped passes]
    rfl

theorem Passes.keySize {a : MbedTLSAdapter} {request : Request} (h : a.Passes request) :
    request.key.size=a.keyBytes := by
  cases request with
  | aeadSeal key nonce aad plaintext ciphertext tag => exact h.1
  | aeadOpen key nonce aad ciphertext tag plaintext => exact h.1

/-- The key is all there when its pointer is not null. -/
theorem setkey_inBounds {a : MbedTLSAdapter} {request : Request} (h : a.Passes request) (ok : Bool) :
    InBounds (.setkey (a.keyBytes*8) request.key ok) ↔ request.key.invalid=false := by
  rw [InBounds,← content_size,h.keySize]
  omega

/-- One request stays in bounds exactly when its caller did its part. -/
theorem OneUse.inBounds {a : MbedTLSAdapter} {request : Request} (h : a.OneUse request) :
    (∀c∈a.calls request,InBounds c) ↔ a.Provided request := by
  by_cases passes : a.Passes request
  · have key := setkey_inBounds passes
    cases taken : (a.mode.setkey a.mode.init request.key).1 with
    | false =>
      rw [h.refused passes taken]
      simp only [List.forall_mem_cons,key,Provided,passes,taken]
      simp [InBounds]
    | true =>
      obtain ⟨use,same,_,bounded⟩ := h.used passes taken
      rw [same]
      simp only [List.forall_mem_cons,key,bounded,Provided,passes,taken]
      simp [InBounds]
  · rw [h.stopped passes,Provided]
    simp [passes]

/-- Whatever is asked of any adapters, with any pointers and any sizes: every context is set up, given
its key, used at most once and only under a key that was taken, and freed. The library stays within
what it is handed exactly when every caller did its part, since the guards see to the rest. -/
theorem calls_disciplined (requests : List (MbedTLSAdapter×Request)) :
    let calls := requests.flatMap (fun x => x.1.calls x.2)
    calls.foldlM Context.next .absent=some .absent ∧
    ((∀c∈calls,InBounds c) ↔ ∀x∈requests,x.1.Provided x.2) := by
  induction requests with
  | nil => exact ⟨rfl,by simp⟩
  | cons x requests ih =>
    obtain ⟨closed,bounded⟩ := ih
    have use := calls_use x.1 x.2
    refine ⟨?_,?_⟩
    · rw [List.flatMap_cons,List.foldlM_append,use.closed]
      exact closed
    · rw [List.flatMap_cons,List.forall_mem_append,List.forall_mem_cons,use.inBounds,bounded]

/-! ### The adapter as a cipher -/

theorem store_length {b v : Bytes} (h : v.length ≤ b.length) :
    ((Span.bytes b).store v).content.length=b.length := by
  simp [Span.store,Span.content,overwrite]
  omega

/-- Storage that is filled whole. -/
theorem store_zeros {n : Nat} {v : Bytes} (h : v.length=n) :
    ((Span.bytes (List.replicate n 0)).store v).content=v := by
  simpa [Span.store,Span.content] using overwrite_zeros [] v 0 n 0 rfl h

theorem sealInto_sizes (a : MbedTLSAdapter) (key nonce aad : Span)
    (plaintext ciphertext tag : Bytes) :
    let o := a.sealInto key nonce aad (.bytes plaintext) (.bytes ciphertext) (.bytes tag)
    o.ciphertext.content.length=ciphertext.length ∧ o.tag.content.length=tag.length := by
  unfold sealInto
  split_ifs with guard
  · exact ⟨rfl,rfl⟩
  · simp only [not_or,not_lt,Span.size] at guard
    obtain ⟨_,_,capacity,tagCapacity,_,_⟩ := guard
    dsimp only
    split_ifs
    · refine ⟨store_length ?_,store_length ?_⟩
      · exact (a.mode.encryptAndTag _ nonce aad _ tagSize).ciphertext.property.trans_le capacity
      · exact (a.mode.encryptAndTag _ nonce aad _ tagSize).tag.property.trans_le tagCapacity
    · exact ⟨rfl,rfl⟩

theorem openInto_sizes (a : MbedTLSAdapter) (key nonce aad : Span)
    (ciphertext tag plaintext : Bytes) :
    (a.openInto key nonce aad (.bytes ciphertext) (.bytes tag)
      (.bytes plaintext)).plaintext.content.length=plaintext.length := by
  unfold openInto
  split_ifs with guard
  · rfl
  · simp only [not_or,not_lt,Span.size] at guard
    obtain ⟨_,_,_,capacity,_,_⟩ := guard
    dsimp only
    split_ifs
    · refine store_length ?_
      exact (a.mode.authDecrypt _ nonce aad _ _).plaintext.property.trans_le capacity
    · rfl

/-- The adapter behind its interface; the callers hand it zeroed storage of the exact size. -/
def cipher (a : MbedTLSAdapter) : IAeadCipher where
  algorithm := a.algorithm
  keySize := a.keyBytes
  nonceSize := nonceSize
  tagSize := tagSize
  aeadSeal key nonce aad plaintext tagCapacity :=
    let o := a.sealInto (.bytes key) (.bytes nonce) (.bytes aad) (.bytes plaintext)
      (.bytes (List.replicate plaintext.length 0)) (.bytes (List.replicate tagCapacity 0))
    ⟨o.ok,⟨o.ciphertext.content,by rw [(a.sealInto_sizes ..).1,List.length_replicate]⟩,
      ⟨o.tag.content,by rw [(a.sealInto_sizes ..).2,List.length_replicate]⟩⟩
  aeadOpen key nonce aad ciphertext tag :=
    let o := a.openInto (.bytes key) (.bytes nonce) (.bytes aad) (.bytes ciphertext) (.bytes tag)
      (.bytes (List.replicate ciphertext.length 0))
    ⟨o.ok,⟨o.plaintext.content,by rw [a.openInto_sizes,List.length_replicate]⟩⟩

/-- The mode of `b` decrypts what that of `a` encrypted under the same key, nonce and associated
data. -/
structure Inverts (b a : MbedTLSAdapter) : Prop where
  keyBytes : b.keyBytes=a.keyBytes
  decrypts : ∀ key nonce aad plaintext,key.length=a.keyBytes → nonce.length=nonceSize →
    let k := a.mode.setkey a.mode.init (.bytes key)
    let s := a.mode.encryptAndTag k.2 (.bytes nonce) (.bytes aad) plaintext tagSize
    k.1=true → s.ok=true →
    let l := b.mode.setkey b.mode.init (.bytes key)
    let o := b.mode.authDecrypt l.2 (.bytes nonce) (.bytes aad) s.ciphertext.val s.tag.val
    l.1=true ∧ o.ok=true ∧ o.plaintext.val=plaintext

/-- A `Seal` that succeeds is one use of the library under the key. -/
theorem seal_ok {a : MbedTLSAdapter} {key nonce aad plaintext : Bytes}
    (h : (a.cipher.aeadSeal key nonce aad plaintext tagSize).ok=true) :
    key.length=a.keyBytes ∧ nonce.length=nonceSize ∧
    (a.mode.setkey a.mode.init (.bytes key)).1=true ∧
    let o := a.mode.encryptAndTag (a.mode.setkey a.mode.init (.bytes key)).2 (.bytes nonce)
      (.bytes aad) plaintext tagSize
    o.ok=true ∧ (a.cipher.aeadSeal key nonce aad plaintext tagSize).ciphertext.val=o.ciphertext.val ∧
      (a.cipher.aeadSeal key nonce aad plaintext tagSize).tag.val=o.tag.val := by
  simp only [cipher,sealInto] at h ⊢
  split_ifs at h ⊢ with guard taken
  · simp only [not_or,ne_eq,Decidable.not_not] at guard
    refine ⟨guard.1,guard.2.1,taken,h,?_,?_⟩
    · exact store_zeros (a.mode.encryptAndTag _ (.bytes nonce) (.bytes aad) _
        tagSize).ciphertext.property
    · exact store_zeros (a.mode.encryptAndTag _ (.bytes nonce) (.bytes aad) _ tagSize).tag.property

theorem open_taken {a : MbedTLSAdapter} {key nonce aad ciphertext tag : Bytes}
    (keySize : key.length=a.keyBytes) (nonceOk : nonce.length=nonceSize) (whole : tag.length=tagSize)
    (taken : (a.mode.setkey a.mode.init (.bytes key)).1=true) :
    let o := a.mode.authDecrypt (a.mode.setkey a.mode.init (.bytes key)).2 (.bytes nonce)
      (.bytes aad) ciphertext tag
    (a.cipher.aeadOpen key nonce aad ciphertext tag).ok=o.ok ∧
      (a.cipher.aeadOpen key nonce aad ciphertext tag).plaintext.val=o.plaintext.val := by
  simp only [cipher,openInto,keySize,nonceOk,taken,Span.size,whole,List.length_replicate,
    Span.isNull]
  simp only [ne_eq,not_true_eq_false,lt_irrefl,Bool.false_eq_true,and_false,or_self,
    if_false,if_true]
  refine ⟨rfl,?_⟩
  exact store_zeros (a.mode.authDecrypt _ (.bytes nonce) (.bytes aad) _ _).plaintext.property

theorem cipher_opens {a b : MbedTLSAdapter} (h : b.Inverts a) : OpensSealed b.cipher a.cipher := by
  intro key nonce aad plaintext ok
  obtain ⟨keySize,nonceOk,taken,done,ciphertext,tag⟩ := seal_ok ok
  intro s
  obtain ⟨accepted,undone,same⟩ := h.decrypts key nonce aad plaintext keySize nonceOk taken done
  have opened := @open_taken b key nonce aad s.ciphertext.val s.tag.val
    (keySize.trans h.keyBytes.symm) nonceOk s.tag.property accepted
  rw [← ciphertext,← tag] at undone same
  exact ⟨opened.1.trans undone,opened.2.trans same⟩

/-- The adapters registered in turn. -/
def registry (as : List MbedTLSAdapter) : AeadCipherRegistry :=
  as.foldl (fun r a => (r.register a.cipher).2) AeadCipherRegistry.empty

/-- Of several adapters for one algorithm the first is found. -/
theorem find_registry (as : List MbedTLSAdapter) (algorithm : AeadAlgorithm) :
    (registry as).find algorithm=(as.find? (·.algorithm=algorithm)).map cipher := by
  induction as using List.reverseRecOn with
  | nil => simp [registry,AeadCipherRegistry.find,AeadCipherRegistry.empty,KeyedTable.lookup]
  | append_singleton as a ih =>
    have last : registry (as++[a])=((registry as).register a.cipher).2 := by simp [registry]
    rw [last,AeadCipherRegistry.find_register,ih,List.find?_append]
    cases as.find? (·.algorithm=algorithm) with
    | some b => rfl
    | none =>
      have own : a.cipher.algorithm=a.algorithm := rfl
      by_cases same : a.algorithm=algorithm <;> simp [own,same]

end MbedTLSAdapter

/-! ### The adapters of the repository -/

def MbedTLSAesGcm {χ : Type} (gcm : MbedTLSMode χ) (keyBytes : Nat) (algorithm : AeadAlgorithm) :
    MbedTLSAdapter := ⟨gcm,algorithm,keyBytes⟩

def MbedTLSAesCcm {χ : Type} (ccm : MbedTLSMode χ) (keyBytes : Nat) (algorithm : AeadAlgorithm) :
    MbedTLSAdapter := ⟨ccm,algorithm,keyBytes⟩

def AES128GCMCipher {χ : Type} (gcm : MbedTLSMode χ) : MbedTLSAdapter := MbedTLSAesGcm gcm 16 .aes128GCM

def AES256GCMCipher {χ : Type} (gcm : MbedTLSMode χ) : MbedTLSAdapter := MbedTLSAesGcm gcm 32 .aes256GCM

def AES128CCMCipher {χ : Type} (ccm : MbedTLSMode χ) : MbedTLSAdapter := MbedTLSAesCcm ccm 16 .aes128CCM

def AES256CCMCipher {χ : Type} (ccm : MbedTLSMode χ) : MbedTLSAdapter := MbedTLSAesCcm ccm 32 .aes256CCM

def ChaCha20Poly1305Cipher {χ : Type} (chachapoly : MbedTLSMode χ) : MbedTLSAdapter :=
  ⟨chachapoly,.chaCha20Poly1305,32⟩

end ESPressioSecurity
