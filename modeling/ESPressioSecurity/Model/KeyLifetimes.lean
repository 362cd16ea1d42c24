import ESPressioSecurity.Model.KeyStorage

namespace ESPressioSecurity

open Framework SharedHeap

/-! ### Views by value -/

/-- What the provider and its views are for: a table of keys, and clients that hold copies of the keys
they asked for. -/
structure Snapshots where
  provider : StaticKeyProvider
  views : List (Option KeyMaterialView)

namespace Snapshots

def empty : Snapshots := ⟨StaticKeyProvider.empty,[]⟩

def noKey : KeyMaterialView := ⟨0,[]⟩

def getKey (w : Snapshots) (i : Nat) (keyID : UInt32) (algorithm : AeadAlgorithm) :
    Snapshots×Bool :=
  match w.views[i]? with
  | some (some _) =>
    let found := w.provider.getKey keyID algorithm
    ({w with views := w.views.set i (some (found.getD noKey))},found.isSome)
  | _ => (w,false)

def copy (w : Snapshots) (i j : Nat) : Snapshots×Bool :=
  match w.views[i]?,w.views[j]? with
  | some (some v),some (some _) => ({w with views := w.views.set j (some v)},true)
  | _,_ => (w,false)

def destroy (w : Snapshots) (i : Nat) : Snapshots×Bool :=
  match w.views[i]? with
  | some (some _) => ({w with views := w.views.set i none},true)
  | _ => (w,false)

def step (w : Snapshots) : KeyStorage.Operation → Snapshots×Bool
  | .add memory keyID algorithm key =>
    let o := w.provider.add memory keyID algorithm key
    ({w with provider := o.2},o.1)
  | .remove keyID algorithm =>
    let o := w.provider.remove keyID algorithm
    ({w with provider := o.2},o.1)
  | .clear => ({w with provider := w.provider.clear},true)
  | .getKey i keyID algorithm => w.getKey i keyID algorithm
  | .declare => ({w with views := w.views++[some noKey]},true)
  | .copy i j => w.copy i j
  | .destroy i => w.destroy i

def machine : Machine Snapshots KeyStorage.Operation Bool := ⟨step⟩

end Snapshots

/-! ### What pointers reach -/

namespace KeyStorage

def Stored (heap : List (Cell Bytes)) (p : Option Nat) : Prop :=
  ∃ a b,p=some a ∧ content heap a=some b ∧ b≠[]

/-- A view is empty, or it points to the bytes of the block it owns and gives their number. -/
def View.Tied (heap : List (Cell Bytes)) (v : View) : Prop :=
  v={} ∨ v.data=v.storage ∧ v.size=(bytesAt heap v.storage).length ∧ Stored heap v.storage

def Entry.value (heap : List (Cell Bytes)) (e : Entry) : StaticKeyProvider.Entry :=
  ⟨e.keyID,e.algorithm,bytesAt heap e.storage⟩

theorem Stored.bytes {heap : List (Cell Bytes)} {p : Option Nat} (h : Stored heap p) :
    bytesAt heap p≠[] := by
  obtain ⟨a,b,rfl,hb,ne⟩ := h
  rw [bytesAt,hb]
  exact ne

/-- An owned block reads the same after an operation that leaves it owned. -/
theorem Moves.content {s t : KeyStorage} (h : s.Sound) (m : s.Moves t) {a : Nat}
    (hs : some a∈s.pointers) (ht : some a∈t.pointers) :
    content t.heap a=content s.heap a :=
  (m.kept a (h.allocated a hs) ht).2

theorem Moves.bytesAt {s t : KeyStorage} (h : s.Sound) (m : s.Moves t) {p : Option Nat}
    (hs : p∈s.pointers) (ht : p∈t.pointers) : bytesAt t.heap p=bytesAt s.heap p := by
  cases p with
  | none => rfl
  | some a => rw [KeyStorage.bytesAt,KeyStorage.bytesAt,m.content h hs ht]

theorem Moves.stored {s t : KeyStorage} (h : s.Sound) (m : s.Moves t) {p : Option Nat}
    (hs : p∈s.pointers) (ht : p∈t.pointers) (hp : Stored s.heap p) : Stored t.heap p := by
  obtain ⟨a,b,rfl,hb,ne⟩ := hp
  exact ⟨a,b,rfl,(m.content h hs ht).trans hb,ne⟩

theorem entry_mem {s : KeyStorage} {e : Entry} (he : e∈s.entries) : e.storage∈s.pointers :=
  List.mem_append_left _ (List.mem_map_of_mem he)

theorem view_mem {s : KeyStorage} {v : View} (hv : some v∈s.views) : v.storage∈s.pointers :=
  List.mem_append_right _ (List.mem_map.mpr ⟨some v,hv,rfl⟩)

theorem Moves.value {s t : KeyStorage} (h : s.Sound) (m : s.Moves t) {e : Entry}
    (hs : e∈s.entries) (ht : e∈t.entries) : e.value t.heap=e.value s.heap := by
  rw [Entry.value,m.bytesAt h (entry_mem hs) (entry_mem ht)]
  rfl

theorem Moves.tied {s t : KeyStorage} (h : s.Sound) (m : s.Moves t) {v : View}
    (hs : some v∈s.views) (ht : some v∈t.views) (tied : v.Tied s.heap) : v.Tied t.heap := by
  rcases tied with rfl|⟨data,size,stored⟩
  · exact Or.inl rfl
  · refine Or.inr ⟨data,?_,m.stored h (view_mem hs) (view_mem ht) stored⟩
    rw [m.bytesAt h (view_mem hs) (view_mem ht)]
    exact size

theorem Moves.exposes {s t : KeyStorage} (h : s.Sound) (m : s.Moves t) {v : View}
    (hs : some v∈s.views) (ht : some v∈t.views) (tied : v.Tied s.heap) :
    v.exposes t.heap=v.exposes s.heap := by
  rcases tied with rfl|⟨data,_,_⟩
  · rfl
  · rw [View.exposes,View.exposes,data,m.bytesAt h (view_mem hs) (view_mem ht)]

/-! ### The heap and the snapshots -/

/-- Entries and views read through the heap are those of the value machine. -/
structure Refines (s : KeyStorage) (w : Snapshots) : Prop where
  sound : s.Sound
  stored : ∀e∈s.entries,Stored s.heap e.storage
  tied : ∀ v,some v∈s.views → v.Tied s.heap
  table : s.entries.map (Entry.value s.heap)=w.provider.entries
  shown : s.views.map (Option.map (View.exposes s.heap))=w.views

theorem empty_refines : empty.Refines Snapshots.empty :=
  ⟨empty_sound,by simp [empty],by simp [empty],rfl,rfl⟩

theorem Refines.findLocked {s : KeyStorage} {w : Snapshots} (h : s.Refines w) (keyID : UInt32)
    (algorithm : AeadAlgorithm) : w.provider.findLocked keyID algorithm=
      (s.findLocked keyID algorithm).map (Entry.value s.heap) := by
  rw [StaticKeyProvider.findLocked,← h.table]
  exact KeyedTable.lookup_map Entry.pair StaticKeyProvider.Entry.pair (Entry.value s.heap)
    (fun _ => rfl) _ s.entries

theorem Refines.kept {s t : KeyStorage} {w : Snapshots} (h : s.Refines w) (m : s.Moves t)
    {e : Entry} (hs : e∈s.entries) (ht : e∈t.entries) :
    Stored t.heap e.storage ∧ e.value t.heap=e.value s.heap :=
  ⟨m.stored h.sound (entry_mem hs) (entry_mem ht) (h.stored e hs),m.value h.sound hs ht⟩

/-- An operation on the table leaves what the views expose. -/
theorem Refines.of_table {s t : KeyStorage} {w : Snapshots} {p : StaticKeyProvider}
    (h : s.Refines w) (m : s.Moves t) (views : t.views=s.views)
    (stored : ∀e∈t.entries,Stored t.heap e.storage)
    (table : t.entries.map (Entry.value t.heap)=p.entries) : t.Refines ⟨p,w.views⟩ := by
  refine ⟨m.balanced,stored,?_,table,?_⟩
  · intro v hv
    have before : some v∈s.views := views ▸ hv
    exact m.tied h.sound before hv (h.tied v before)
  · show t.views.map _=w.views
    rw [← h.shown,views]
    apply List.map_congr_left
    intro x hx
    cases x with
    | none => rfl
    | some v => exact congrArg some (m.exposes h.sound hx (views ▸ hx) (h.tied v hx))

/-- An operation on a view leaves the table and the other views. -/
theorem Refines.of_slot {s t : KeyStorage} {w : Snapshots} (h : s.Refines w) (m : s.Moves t)
    {i : Nat} {x : Option View} (entries : t.entries=s.entries) (views : t.views=s.views.set i x)
    (tied : ∀v∈x,v.Tied t.heap) :
    t.Refines ⟨w.provider,w.views.set i (x.map (View.exposes t.heap))⟩ := by
  refine ⟨m.balanced,?_,?_,?_,?_⟩
  · intro e he
    exact (h.kept m (entries ▸ he) he).1
  · intro v hv
    have cases := hv
    rw [views] at cases
    rcases List.mem_or_eq_of_mem_set cases with before|he
    · exact m.tied h.sound before hv (h.tied v before)
    · exact tied v he.symm
  · rw [← h.table,entries]
    apply List.map_congr_left
    intro e he
    exact (h.kept m he (entries ▸ he)).2
  · show t.views.map _=w.views.set i _
    rw [← h.shown,views,List.map_set]
    apply List.ext_getElem?
    intro j
    rw [List.getElem?_set,List.getElem?_set,List.length_map,List.length_map]
    split_ifs with here inside
    · rfl
    · rfl
    · rw [List.getElem?_map,List.getElem?_map]
      cases hj : s.views[j]? with
      | none => rfl
      | some y =>
        cases y with
        | none => rfl
        | some v =>
          have before := List.mem_of_getElem? hj
          have after : some v∈t.views := by
            rw [views]
            apply List.mem_of_getElem? (i := j)
            rw [List.getElem?_set_ne here]
            exact hj
          exact congrArg (some ∘ some) (m.exposes h.sound before after (h.tied v before))

/-! ### One operation -/

theorem Refines.read_split {s : KeyStorage} {w : Snapshots} (h : s.Refines w)
    {before after : List Entry} {e : Entry} (split : s.entries=before++e::after)
    (others : ∀y∈before,y.pair≠e.pair) :
    w.provider.entries=
      before.map (Entry.value s.heap)++e.value s.heap::after.map (Entry.value s.heap) ∧
    ∀y∈before.map (Entry.value s.heap),y.pair≠e.pair := by
  constructor
  · rw [← h.table,split,List.map_append,List.map_cons]
  · intro y hy
    obtain ⟨x,hx,rfl⟩ := List.mem_map.mp hy
    exact others x hx

theorem around {before after : List Entry} {e x : Entry} (hx : x∈before++after) :
    x∈before++e::after := by
  rcases List.mem_append.mp hx with hx|hx
  · exact List.mem_append_left _ hx
  · exact List.mem_append_right _ (List.mem_cons_of_mem _ hx)

theorem replaceStorage_content {s : KeyStorage} (h : s.Sound) {e : Entry} (he : e∈s.entries)
    (b : Bytes) : content (s.replaceStorage e b).heap s.heap.length=some b := by
  have old : e.storage≠some s.heap.length := by
    intro same
    exact absurd (h.allocated _ (same ▸ entry_mem he)) (Nat.lt_irrefl _)
  rw [replaceStorage,content_release_ne _ _ old,content_alloc,if_pos rfl]

theorem replaceStorage_refines {s : KeyStorage} {w : Snapshots} (h : s.Refines w) {keyID : UInt32}
    {algorithm : AeadAlgorithm} {e : Entry} (found : s.findLocked keyID algorithm=some e)
    {b : Bytes} (hb : b≠[]) :
    (s.replaceStorage e b).Refines ⟨w.provider.replaceStorage keyID algorithm b,w.views⟩ := by
  have m := replaceStorage_moves h.sound found b
  have new := replaceStorage_content h.sound (mem_of_findLocked found) b
  have pair : e.pair=(keyID,algorithm) := (KeyedTable.lookup_key Entry.pair found).2
  obtain ⟨before,after,split,others,table⟩ := replaceStorage_split found b
  let e' : Entry := {e with storage := some s.heap.length}
  have kept : ∀x∈before++after,Stored (s.replaceStorage e b).heap x.storage ∧
      x.value (s.replaceStorage e b).heap=x.value s.heap := by
    intro x hx
    apply h.kept m
    · rw [split]
      exact around hx
    · rw [table]
      exact around hx
  refine h.of_table m rfl ?_ ?_
  · intro x hx
    rw [table] at hx
    rcases List.mem_append.mp hx with hx|hx
    · exact (kept x (List.mem_append_left _ hx)).1
    · rcases List.mem_cons.mp hx with rfl|hx
      · exact ⟨s.heap.length,b,rfl,new,hb⟩
      · exact (kept x (List.mem_append_right _ hx)).1
  · have value : e'.value (s.replaceStorage e b).heap={e.value s.heap with storage := b} := by
      simp [Entry.value,bytesAt,new,e']
    have first : ∀x∈before,x.value (s.replaceStorage e b).heap=x.value s.heap := fun x hx =>
      (kept x (List.mem_append_left _ hx)).2
    have last : ∀x∈after,x.value (s.replaceStorage e b).heap=x.value s.heap := fun x hx =>
      (kept x (List.mem_append_right _ hx)).2
    obtain ⟨read,others'⟩ := h.read_split split others
    have pair' : (e.value s.heap).pair=(keyID,algorithm) := pair
    rw [pair] at others'
    rw [table,List.map_append,List.map_cons,List.map_congr_left first,List.map_congr_left last,
      value]
    show _=KeyedTable.modify StaticKeyProvider.Entry.pair (keyID,algorithm) _ w.provider.entries
    rw [read]
    exact (KeyedTable.modify_middle StaticKeyProvider.Entry.pair
      (f := fun e => {e with storage := b}) pair' others').symm

theorem pushEntry_refines {s : KeyStorage} {w : Snapshots} (h : s.Refines w) {keyID : UInt32}
    {algorithm : AeadAlgorithm} {b : Bytes} (hb : b≠[])
    (missing : w.provider.findLocked keyID algorithm=none) :
    (s.pushEntry keyID algorithm b).Refines
      ⟨w.provider.pushEntry ⟨keyID,algorithm,b⟩ missing,w.views⟩ := by
  have m := pushEntry_moves h.sound keyID algorithm b
  have new : content (s.pushEntry keyID algorithm b).heap s.heap.length=some b := by
    rw [pushEntry,content_alloc,if_pos rfl]
  have kept : ∀x∈s.entries,x∈(s.pushEntry keyID algorithm b).entries := fun x hx =>
    List.mem_append_left _ hx
  refine h.of_table m rfl ?_ ?_
  · intro x hx
    rcases List.mem_append.mp hx with before|hx
    · exact (h.kept m before hx).1
    · rw [List.mem_singleton.mp hx]
      exact ⟨s.heap.length,b,rfl,new,hb⟩
  · have same : ∀x∈s.entries,x.value (s.pushEntry keyID algorithm b).heap=x.value s.heap :=
      fun x hx => (h.kept m hx (kept x hx)).2
    show (s.entries++[_]).map _=w.provider.entries++[_]
    rw [List.map_append,List.map_congr_left same,h.table]
    simp [Entry.value,bytesAt,new]

theorem discard_refines {s : KeyStorage} {w : Snapshots} (h : s.Refines w) (b : Bytes) :
    (s.discard b).Refines w := by
  have m := discard_moves h.sound b
  refine h.of_table m rfl ?_ ?_
  · intro x hx
    exact (h.kept m hx hx).1
  · rw [← h.table]
    apply List.map_congr_left
    intro x hx
    exact (h.kept m hx hx).2

theorem add_refines {s : KeyStorage} {w : Snapshots} (h : s.Refines w)
    (memory : StaticKeyProvider.AddAllocation) (keyID : UInt32) (algorithm : AeadAlgorithm)
    (key : Span) :
    (s.add memory keyID algorithm key).1.Refines
      ⟨(w.provider.add memory keyID algorithm key).2,w.views⟩ ∧
    (s.add memory keyID algorithm key).2=(w.provider.add memory keyID algorithm key).1 := by
  cases key with
  | null n => exact ⟨h,rfl⟩
  | bytes b =>
    rw [add,StaticKeyProvider.add]
    by_cases invalid : keyID=0 ∨ b.length=0
    · rw [if_pos invalid,if_pos invalid]
      exact ⟨h,rfl⟩
    by_cases denied : memory.storage=false
    · rw [if_neg invalid,if_neg invalid,if_pos denied,if_pos denied]
      exact ⟨h,rfl⟩
    rw [if_neg invalid,if_neg invalid,if_neg denied,if_neg denied]
    have hb : b≠[] := fun he => invalid (Or.inr (by rw [he]; rfl))
    have looked := h.findLocked keyID algorithm
    cases found : s.findLocked keyID algorithm with
    | some e =>
      have present : w.provider.findLocked keyID algorithm≠none := by
        rw [looked,found]
        simp
      rw [dif_neg present]
      exact ⟨replaceStorage_refines h found hb,rfl⟩
    | none =>
      have missing : w.provider.findLocked keyID algorithm=none := by
        rw [looked,found]
        rfl
      rw [dif_pos missing]
      dsimp only
      by_cases full : memory.entry=false
      · rw [if_pos full,if_pos full]
        exact ⟨discard_refines h b,rfl⟩
      · rw [if_neg full,if_neg full]
        exact ⟨pushEntry_refines h hb missing,rfl⟩

theorem eraseEntry_refines {s : KeyStorage} {w : Snapshots} (h : s.Refines w) {keyID : UInt32}
    {algorithm : AeadAlgorithm} {e : Entry} (found : s.findLocked keyID algorithm=some e)
    {p : StaticKeyProvider} (hp : p.entries=
      KeyedTable.erase StaticKeyProvider.Entry.pair (keyID,algorithm) w.provider.entries) :
    (s.eraseEntry e).Refines ⟨p,w.views⟩ := by
  have m := eraseEntry_moves h.sound found
  have pair : e.pair=(keyID,algorithm) := (KeyedTable.lookup_key Entry.pair found).2
  obtain ⟨before,after,split,others,table⟩ := eraseEntry_split found
  have was : ∀x∈(s.eraseEntry e).entries,x∈s.entries := by
    intro x hx
    rw [table] at hx
    rw [split]
    exact around hx
  refine h.of_table m rfl ?_ ?_
  · intro x hx
    exact (h.kept m (was x hx) hx).1
  · have same : ∀x∈(s.eraseEntry e).entries,
        x.value (s.eraseEntry e).heap=x.value s.heap := fun x hx =>
      (h.kept m (was x hx) hx).2
    obtain ⟨read,others'⟩ := h.read_split split others
    have pair' : (e.value s.heap).pair=(keyID,algorithm) := pair
    rw [pair] at others'
    rw [List.map_congr_left same,table,List.map_append,hp,read]
    exact (KeyedTable.erase_middle StaticKeyProvider.Entry.pair pair' others').symm

theorem remove_refines {s : KeyStorage} {w : Snapshots} (h : s.Refines w) (keyID : UInt32)
    (algorithm : AeadAlgorithm) :
    (s.remove keyID algorithm).1.Refines ⟨(w.provider.remove keyID algorithm).2,w.views⟩ ∧
    (s.remove keyID algorithm).2=(w.provider.remove keyID algorithm).1 := by
  have looked := h.findLocked keyID algorithm
  rw [remove]
  cases found : s.findLocked keyID algorithm with
  | none =>
    rw [found] at looked
    rw [StaticKeyProvider.remove_none looked]
    exact ⟨h,rfl⟩
  | some e =>
    rw [found] at looked
    obtain ⟨done,left⟩ := StaticKeyProvider.remove_some looked
    exact ⟨eraseEntry_refines h found left,done.symm⟩

theorem clear_refines {s : KeyStorage} {w : Snapshots} (h : s.Refines w) :
    s.clear.Refines ⟨w.provider.clear,w.views⟩ :=
  h.of_table (clear_moves h.sound) rfl (by simp [clear]) rfl

theorem declare_refines {s : KeyStorage} {w : Snapshots} (h : s.Refines w) :
    s.declare.Refines ⟨w.provider,w.views++[some Snapshots.noKey]⟩ := by
  refine ⟨(declare_moves h.sound).balanced,h.stored,?_,h.table,?_⟩
  · intro v hv
    rcases List.mem_append.mp hv with hv|hv
    · exact h.tied v hv
    · exact Or.inl (Option.some.inj (List.mem_singleton.mp hv))
  · show (s.views++[some ({} : View)]).map (Option.map (View.exposes s.heap))=_
    rw [List.map_append,h.shown]
    rfl

theorem Refines.slot {s : KeyStorage} {w : Snapshots} (h : s.Refines w) (i : Nat) :
    w.views[i]?=s.views[i]?.map (Option.map (View.exposes s.heap)) := by
  rw [← h.shown,List.getElem?_map]

theorem destroy_refines {s : KeyStorage} {w : Snapshots} (h : s.Refines w) (i : Nat) :
    (s.destroy i).1.Refines (w.destroy i).1 ∧ (s.destroy i).2=(w.destroy i).2 := by
  have slot := h.slot i
  rw [destroy,Snapshots.destroy,slot]
  rcases hv : s.views[i]? with _|_|v
  · exact ⟨h,rfl⟩
  · exact ⟨h,rfl⟩
  · exact ⟨h.of_slot (setView_moves h.sound hv (Or.inl rfl)) rfl rfl (by simp),rfl⟩

theorem copy_refines {s : KeyStorage} {w : Snapshots} (h : s.Refines w) (i j : Nat) :
    (s.copy i j).1.Refines (w.copy i j).1 ∧ (s.copy i j).2=(w.copy i j).2 := by
  have source := h.slot i
  have target := h.slot j
  rw [copy,Snapshots.copy,source,target]
  rcases hv : s.views[i]? with _|_|v
  · exact ⟨h,rfl⟩
  · exact ⟨h,rfl⟩
  rcases hu : s.views[j]? with _|_|u
  · exact ⟨h,rfl⟩
  · exact ⟨h,rfl⟩
  have m := setView_moves h.sound hu (w := some v) (Or.inr (held_mem hv))
  have before := List.mem_of_getElem? hv
  have after : some v∈(s.setView j u (some v)).views :=
    List.mem_of_getElem? (setView_slot hu (some v))
  have tied := m.tied h.sound before after (h.tied v before)
  have same := m.exposes h.sound before after (h.tied v before)
  have done := h.of_slot m rfl rfl (x := some v) (by simpa using tied)
  rw [Option.map_some,same] at done
  exact ⟨done,rfl⟩

theorem bindView_refines {s : KeyStorage} {w : Snapshots} (h : s.Refines w) {i : Nat}
    (hv : s.views[i]?=some (some {})) {e : Entry} (he : e∈s.entries) :
    (s.bindView i e).1.Refines
      ⟨w.provider,w.views.set i (some ⟨e.keyID,(e.value s.heap).storage⟩)⟩ ∧
    (s.bindView i e).2=true := by
  have m := bindView_moves h.sound hv he
  obtain ⟨a,b,ha,hb,ne⟩ := h.stored e he
  -- `Bind` reads the block after it has retained it
  have now : content (s.bindView i e).1.heap a=some b := (content_retain _ _ _).trans hb
  have bytes : bytesAt (s.bindView i e).1.heap e.storage=b := by rw [ha,bytesAt,now]; rfl
  have bound : (View.bind s.heap {} e.keyID e.storage).2=⟨e.keyID,some a,b.length,some a⟩ := by
    show (⟨_,if bytesAt (s.bindView i e).1.heap e.storage=[] then none else _,
      (bytesAt (s.bindView i e).1.heap e.storage).length,_⟩ : View)=_
    rw [bytes,if_neg ne,ha]
  have value : (e.value s.heap).storage=b := by
    show bytesAt s.heap e.storage=b
    rw [ha,bytesAt,hb]
    rfl
  have views : (s.bindView i e).1.views=s.views.set i (some ⟨e.keyID,some a,b.length,some a⟩) :=
    congrArg (fun v => s.views.set i (some v)) bound
  have read : bytesAt (s.bindView i e).1.heap (some a)=b := by
    rw [← ha]
    exact bytes
  have tied : View.Tied (s.bindView i e).1.heap ⟨e.keyID,some a,b.length,some a⟩ :=
    Or.inr ⟨rfl,by rw [read],a,b,rfl,now,ne⟩
  have done := h.of_slot m rfl views (by simpa using tied)
  have exposed : View.exposes (s.bindView i e).1.heap ⟨e.keyID,some a,b.length,some a⟩=
      ⟨e.keyID,b⟩ := by
    rw [View.exposes,read,List.take_length]
  rw [Option.map_some,exposed] at done
  rw [value]
  refine ⟨done,?_⟩
  show (!(View.bind s.heap {} e.keyID e.storage).2.isEmpty)=true
  rw [bound]
  simpa [View.isEmpty] using ne

theorem getKey_refines {s : KeyStorage} {w : Snapshots} (h : s.Refines w) (i : Nat)
    (keyID : UInt32) (algorithm : AeadAlgorithm) :
    (s.getKey i keyID algorithm).1.Refines (w.getKey i keyID algorithm).1 ∧
    (s.getKey i keyID algorithm).2=(w.getKey i keyID algorithm).2 := by
  have slot := h.slot i
  rw [getKey,Snapshots.getKey,slot]
  rcases hv : s.views[i]? with _|_|v
  · exact ⟨h,rfl⟩
  · exact ⟨h,rfl⟩
  dsimp only [Option.map_some]
  have blank : ∀u∈(some {} : Option View),u.Tied (s.setView i v (some {})).heap := by
    intro u hu
    exact Or.inl (Option.mem_some_iff.mp hu).symm
  have reset := h.of_slot (setView_moves h.sound hv (w := some {}) (Or.inl rfl)) rfl rfl blank
  have looked := reset.findLocked keyID algorithm
  cases found : (s.setView i v (some {})).findLocked keyID algorithm with
  | none =>
    have missing : w.provider.getKey keyID algorithm=none := by
      rw [found] at looked
      rw [StaticKeyProvider.getKey,looked]
      rfl
    rw [missing]
    exact ⟨reset,rfl⟩
  | some e =>
    have he := mem_of_findLocked found
    have stored := reset.stored e he
    have present : w.provider.getKey keyID algorithm=
        some ⟨e.keyID,(e.value (s.setView i v (some {})).heap).storage⟩ := by
      rw [found] at looked
      rw [StaticKeyProvider.getKey,looked]
      exact if_neg stored.bytes
    have owned : e.storage≠none := by
      obtain ⟨a,b,ha,_⟩ := stored
      rw [ha]
      simp
    obtain ⟨done,answer⟩ := bindView_refines reset (setView_slot hv (some {})) he
    rw [List.set_set] at done
    dsimp only
    rw [if_neg owned,present]
    exact ⟨done,answer⟩

/-- The storage and the snapshots stay in step and answer alike. -/
theorem step_refines (s : KeyStorage) (w : Snapshots) (op : Operation) (h : s.Refines w) :
    (machine.step s op).1.Refines (Snapshots.machine.step w op).1 ∧
    (machine.step s op).2=(Snapshots.machine.step w op).2 := by
  cases op with
  | add memory keyID algorithm key => exact add_refines h memory keyID algorithm key
  | remove keyID algorithm => exact remove_refines h keyID algorithm
  | clear => exact ⟨clear_refines h,rfl⟩
  | getKey i keyID algorithm => exact getKey_refines h i keyID algorithm
  | declare => exact ⟨declare_refines h,rfl⟩
  | copy i j => exact copy_refines h i j
  | destroy i => exact destroy_refines h i

theorem run_refines (ops : List Operation) :
    (machine.after empty ops).Refines (Snapshots.machine.after Snapshots.empty ops) ∧
    machine.trace empty ops=Snapshots.machine.trace Snapshots.empty ops :=
  machine.simulation Snapshots.machine Refines step_refines empty_refines ops

end KeyStorage
end ESPressioSecurity
