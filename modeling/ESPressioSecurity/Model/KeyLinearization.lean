import ESPressioSecurity.Model.KeyThreads

namespace ESPressioSecurity

open Framework SharedHeap SharedObject

namespace Snapshots

/-- The key that a call of the given result hands to its caller. -/
def handed : KeyStorage.Operation → Snapshots → Bool → Option KeyMaterialView
  | .getKey i _ _,w,true => w.views[i]?.join
  | _,_,_ => none

theorem handed_false (op : KeyStorage.Operation) (w : Snapshots) : handed op w false=none := by
  cases op <;> rfl

/-- A key that has just been put into a view is handed out. -/
theorem handed_set {i : Nat} {keyID : UInt32} {algorithm : AeadAlgorithm} {w : Snapshots}
    (inside : i<w.views.length) (key : KeyMaterialView) :
    handed (.getKey i keyID algorithm) ⟨w.provider,w.views.set i (some key)⟩ true=some key := by
  rw [handed,List.getElem?_set_self inside]
  rfl

/-- The sequential object with the keys among its answers. -/
def answers : Machine Snapshots KeyStorage.Operation KeyThreads.Answer :=
  ⟨fun w op => ((w.step op).1,⟨(w.step op).2,handed op (w.step op).1 (w.step op).2⟩)⟩

theorem answers_step {w x : Snapshots} {op : KeyStorage.Operation} {result : Bool}
    (h : w.step op=(x,result)) : answers.step w op=(x,⟨result,handed op x result⟩) := by
  show ((w.step op).1,KeyThreads.Answer.mk (w.step op).2 _)=_
  rw [h]

end Snapshots

namespace KeyThreads

open KeyStorage (Operation Entry View Stored)

/-! ### Threads and their calls -/

/-- The views that `GetKey` has emptied and not yet bound. -/
def Phase.hidden : Phase → List Nat
  | .emptied i _ _ _ | .binding i _ _ => [i]
  | .waiting c | .inside c => c.slots
  | _ => []

/-- Slot `i` is an emptied view here, and there it still shows what it did. -/
def Emptied (s : KeyStorage) (x : Snapshots) (i : Nat) : Prop :=
  s.views[i]?=some (some {}) ∧ ∃ u,x.views[i]?=some (some u)

/-- A call outside or at the start of its critical section has not taken effect. -/
def Section.Fits (s : KeyStorage) (x : Snapshots) (st : Status Operation Answer) : Section → Prop
  | .add memory keyID algorithm storage => ∃ a b,storage=some a ∧ content s.heap a=some b ∧
      ¬(keyID=0 ∨ b.length=0) ∧ memory.storage=true ∧
      st=.pending (.add memory keyID algorithm (.bytes b))
  | .remove keyID algorithm => st=.pending (.remove keyID algorithm)
  | .clear => st=.pending .clear
  | .getKey i keyID algorithm => Emptied s x i ∧ st=.pending (.getKey i keyID algorithm)

/-- What a phase says about the storage and about the standing of the thread's call. -/
def Phase.Fits (s : KeyStorage) (x : Snapshots) (st : Status Operation Answer) : Phase → Prop
  | .idle => st=.idle
  | .called op => st=.pending op
  | .emptied i keyID algorithm _ => Emptied s x i ∧ st=.pending (.getKey i keyID algorithm)
  | .waiting c | .inside c => c.Fits s x st
  | .binding i keyID storage => Stored s.heap storage ∧ s.views[i]?=some (some {}) ∧
      x.views[i]?=some (some ⟨keyID,KeyStorage.bytesAt s.heap storage⟩) ∧
      st=.answered ⟨true,some ⟨keyID,KeyStorage.bytesAt s.heap storage⟩⟩
  | .leaving _ _ answer | .returning _ answer => st=.answered answer

/-- What a thread relies on while the others are at work: its blocks keep their content and nobody
touches the views it uses. -/
theorem Phase.Fits.frame {s u : KeyStorage} {x y : Snapshots} {st : Status Operation Answer}
    {p : Phase} (fits : p.Fits s x st)
    (heap : ∀ a,some a∈p.pointers → content u.heap a=content s.heap a)
    (views : ∀i∈p.hidden,s.views[i]?≠none →
      u.views[i]?=s.views[i]? ∧ y.views[i]?=x.views[i]?) : p.Fits u y st := by
  have emptied : ∀i∈p.hidden,Emptied s x i → Emptied u y i := by
    intro i hi before
    obtain ⟨here,there⟩ := views i hi (by simp [before.1])
    exact ⟨here.trans before.1,by rw [there]; exact before.2⟩
  have section' : ∀ c : Section,c.slots=p.hidden → c.pointers=p.pointers → c.Fits s x st →
      c.Fits u y st := by
    intro c slots pointers before
    cases c with
    | add memory keyID algorithm storage =>
      obtain ⟨a,b,rfl,hb,rest⟩ := before
      refine ⟨a,b,rfl,?_,rest⟩
      rw [heap a (by simp [← pointers,Section.pointers])]
      exact hb
    | remove keyID algorithm => exact before
    | clear => exact before
    | getKey i keyID algorithm => exact ⟨emptied i (by simp [← slots,Section.slots]) before.1,before.2⟩
  cases p with
  | idle => exact fits
  | called op => exact fits
  | emptied i keyID algorithm old => exact ⟨emptied i List.mem_cons_self fits.1,fits.2⟩
  | waiting c => exact section' c rfl rfl fits
  | inside c => exact section' c rfl rfl fits
  | binding i keyID storage =>
    obtain ⟨stored,here,there,answered⟩ := fits
    obtain ⟨same,same'⟩ := views i List.mem_cons_self (by simp [here])
    obtain ⟨a,b,rfl,hb,ne⟩ := stored
    have kept := heap a List.mem_cons_self
    have bytes : KeyStorage.bytesAt u.heap (some a)=KeyStorage.bytesAt s.heap (some a) := by
      rw [KeyStorage.bytesAt,KeyStorage.bytesAt,kept]
    refine ⟨⟨a,b,rfl,kept.trans hb,ne⟩,same.trans here,?_,?_⟩
    · rw [same',there,bytes]
    · rw [bytes]
      exact answered
  | leaving now later answer => exact fits
  | returning later answer => exact fits

/-- The provider between threads, and the shared object it is to be. -/
structure Simulates (s : KeyThreads) (w : Shared Nat Snapshots Operation Answer) : Prop where
  sound : s.Sound
  locked : ∀ t : Nat,s.owner=some t ↔ ∃p : Phase,s.phases[t]?=some p ∧ p.holds=true
  apart : ∀ (t r : Nat) (p q : Phase),s.phases[t]?=some p → s.phases[r]?=some q → t≠r →
    ∀i∈p.slots,i∉q.slots
  stored : ∀e∈s.storage.entries,Stored s.storage.heap e.storage
  tied : ∀ v,some v∈s.storage.views → v.Tied s.storage.heap
  table : s.storage.entries.map (Entry.value s.storage.heap)=w.object.provider.entries
  shown : ∀ i,(∀p∈s.phases,i∉p.hidden) →
    w.object.views[i]?=s.storage.views[i]?.map (Option.map (View.exposes s.storage.heap))
  fits : ∀ (t : Nat) (p : Phase),s.phases[t]?=some p → p.Fits s.storage w.object (w.status t)

theorem Phase.hidden_slots {p : Phase} {i : Nat} (hi : i∈p.hidden) : i∈p.slots := by
  cases p <;> first | exact hi | exact absurd hi (by simp [Phase.hidden])

theorem Simulates.blank {s : KeyThreads} {w : Shared Nat Snapshots Operation Answer}
    (h : s.Simulates w) : s.Blank := by
  intro t i keyID storage hp
  exact (h.fits t _ hp).2.1

theorem phase_mem {s : KeyThreads} {t : Nat} {p : Phase} (hp : s.phases[t]?=some p)
    {x : Option Nat} (hx : x∈p.pointers) : x∈s.pointers :=
  List.mem_append_right _ (List.mem_flatMap.mpr ⟨p,List.mem_of_getElem? hp,hx⟩)

/-! ### What stays the same when blocks move -/

/-- The pointers on their way counted as views of the storage. -/
def owners (s : KeyThreads) : KeyStorage :=
  {s.storage with
    views := s.storage.views++(s.phases.flatMap Phase.pointers).map (fun p => some {storage := p})}

theorem owners_pointers (s : KeyThreads) : s.owners.pointers=s.pointers := by
  have local' : ((s.phases.flatMap Phase.pointers).map (fun p => some ({storage := p} : View))).map
      KeyStorage.held=s.phases.flatMap Phase.pointers := by
    rw [List.map_map]
    exact List.map_id _
  rw [pointers,KeyStorage.pointers,owners,List.map_append,local',← List.append_assoc]
  rfl

theorem Sound.owners {s : KeyThreads} (h : s.Sound) : s.owners.Sound := by
  rw [KeyStorage.Sound,owners_pointers]
  exact h

theorem Moves.owners {s u : KeyThreads} (m : s.Moves u) : s.owners.Moves u.owners := by
  rw [KeyStorage.Moves,owners_pointers,owners_pointers]
  exact m

theorem view_owned {s : KeyThreads} {v : View} (hv : some v∈s.storage.views) :
    some v∈s.owners.views := List.mem_append_left _ hv

theorem Moves.content {s u : KeyThreads} (h : s.Sound) (m : s.Moves u) {a : Nat}
    (hs : some a∈s.pointers) (hu : some a∈u.pointers) :
    content u.storage.heap a=content s.storage.heap a :=
  (m.kept a (h.allocated a hs) hu).2

/-- Entries in the table before and after the step. -/
theorem Simulates.entry {s u : KeyThreads} {w : Shared Nat Snapshots Operation Answer}
    (h : s.Simulates w) (m : s.Moves u) {e : Entry} (hs : e∈s.storage.entries)
    (hu : e∈u.storage.entries) :
    Stored u.storage.heap e.storage ∧ e.value u.storage.heap=e.value s.storage.heap :=
  ⟨m.owners.stored h.sound.owners (KeyStorage.entry_mem hs) (KeyStorage.entry_mem hu)
    (h.stored e hs),m.owners.value h.sound.owners hs hu⟩

/-- Views in a slot before and after the step. -/
theorem Simulates.view {s u : KeyThreads} {w : Shared Nat Snapshots Operation Answer}
    (h : s.Simulates w) (m : s.Moves u) {v : View} (hs : some v∈s.storage.views)
    (hu : some v∈u.storage.views) :
    v.Tied u.storage.heap ∧ v.exposes u.storage.heap=v.exposes s.storage.heap :=
  ⟨m.owners.tied h.sound.owners (view_owned hs) (view_owned hu) (h.tied v hs),
    m.owners.exposes h.sound.owners (view_owned hs) (view_owned hu) (h.tied v hs)⟩

/-! ### One step of one thread -/

/-- A thread's step keeps to its own views and its own call, and to the mutex. -/
structure Keeps (s u : KeyThreads) (w v : Shared Nat Snapshots Operation Answer) (t : Nat)
    (p q : Phase) : Prop where
  turn : Turn s u t p q
  moves : s.Moves u
  mutex : u.owner=s.owner ∧ q.holds=p.holds ∨ s.owner=none ∧ u.owner=some t ∧ q.holds=true ∨
    s.owner=some t ∧ u.owner=none ∧ q.holds=false
  slots : ∀ (r : Nat) (x : Phase),r≠t → s.phases[r]?=some x → ∀i∈q.slots,i∉x.slots
  calls : ∀ r,r≠t → v.status r=w.status r
  views : ∀ i,i∉p.slots → s.storage.views[i]?≠none →
    u.storage.views[i]?=s.storage.views[i]? ∧ v.object.views[i]?=w.object.views[i]?

theorem Turn.before {s u : KeyThreads} {t : Nat} {p q : Phase} (turn : Turn s u t p q) {r : Nat}
    {x : Phase} (hx : u.phases[r]?=some x) : r=t ∧ x=q ∨ r≠t ∧ s.phases[r]?=some x := by
  by_cases same : r=t
  · subst same
    rw [turn.now] at hx
    exact Or.inl ⟨rfl,(Option.some.inj hx).symm⟩
  · rw [turn.phases,List.getElem?_set_ne (Ne.symm same)] at hx
    exact Or.inr ⟨same,hx⟩

/-- The threads' side of a step; the table and the views are left to show. -/
theorem Keeps.simulates {s u : KeyThreads} {w v : Shared Nat Snapshots Operation Answer} {t : Nat}
    {p q : Phase} (k : Keeps s u w v t p q) (h : s.Simulates w)
    (stored : ∀e∈u.storage.entries,Stored u.storage.heap e.storage)
    (tied : ∀ x,some x∈u.storage.views → x.Tied u.storage.heap)
    (table : u.storage.entries.map (Entry.value u.storage.heap)=v.object.provider.entries)
    (shown : ∀ i,(∀x∈u.phases,i∉x.hidden) →
      v.object.views[i]?=u.storage.views[i]?.map (Option.map (View.exposes u.storage.heap)))
    (fits : q.Fits u.storage v.object (v.status t)) : u.Simulates v := by
  refine ⟨k.moves.balanced,?_,?_,stored,tied,table,shown,?_⟩
  · intro r
    by_cases same : r=t
    · subst same
      have was := h.locked r
      simp only [k.turn.was,Option.some.injEq,exists_eq_left'] at was
      simp only [k.turn.now,Option.some.injEq,exists_eq_left']
      rcases k.mutex with ⟨same,held⟩|⟨_,now,held⟩|⟨_,now,held⟩
      · rw [same,held]
        exact was
      · simp [now,held]
      · simp [now,held]
    · have was := h.locked r
      rw [k.turn.phases,List.getElem?_set_ne (Ne.symm same)]
      rcases k.mutex with ⟨kept,_⟩|⟨free,now,_⟩|⟨mine,now,_⟩
      · rw [kept]
        exact was
      · rw [← was,free,now]
        simp [Ne.symm same]
      · rw [← was,mine,now]
        simp [Ne.symm same]
  · intro r r' x x' hx hx' ne i hi
    rcases k.turn.before hx with ⟨rfl,rfl⟩|⟨other,before⟩
    · rcases k.turn.before hx' with ⟨rfl,_⟩|⟨_,before'⟩
      · exact absurd rfl ne
      · exact k.slots r' x' (Ne.symm ne) before' i hi
    · rcases k.turn.before hx' with ⟨rfl,rfl⟩|⟨_,before'⟩
      · intro hi'
        exact k.slots r x ne before i hi' hi
      · exact h.apart r r' x x' before before' ne i hi
  · intro r x hx
    rcases k.turn.before hx with ⟨rfl,rfl⟩|⟨other,before⟩
    · exact fits
    · rw [k.calls r other]
      apply (h.fits r x before).frame
      · intro a ha
        exact k.moves.content h.sound (phase_mem before ha) (phase_mem hx ha)
      · intro i hi present
        exact k.views i (h.apart r t x p before k.turn.was other i (Phase.hidden_slots hi)) present

theorem Turn.hidden_before {s u : KeyThreads} {t : Nat} {p q : Phase} (turn : Turn s u t p q)
    {i : Nat} (mine : i∉p.hidden) (now : ∀x∈u.phases,i∉x.hidden) : ∀x∈s.phases,i∉x.hidden := by
  intro x hx
  obtain ⟨r,hr⟩ := List.mem_iff_getElem?.mp hx
  by_cases same : r=t
  · subst same
    rw [turn.was] at hr
    rw [← Option.some.inj hr]
    exact mine
  · apply now x
    apply List.mem_of_getElem? (i := r)
    rw [turn.phases,List.getElem?_set_ne (Ne.symm same)]
    exact hr

theorem Simulates.slots_kept {s : KeyThreads} {w : Shared Nat Snapshots Operation Answer}
    (h : s.Simulates w) {t : Nat} {p q : Phase} (hp : s.phases[t]?=some p)
    (slots : ∀i∈q.slots,i∈p.slots) : ∀ (r : Nat) (x : Phase),r≠t → s.phases[r]?=some x →
      ∀i∈q.slots,i∉x.slots :=
  fun r x ne hx i hi => h.apart t r p x hp hx (Ne.symm ne) i (slots i hi)

/-- The table stays. -/
theorem Simulates.table_stays {s u : KeyThreads} {w v : Shared Nat Snapshots Operation Answer}
    (h : s.Simulates w) (m : s.Moves u) (entries : u.storage.entries=s.storage.entries)
    (provider : v.object.provider=w.object.provider) :
    (∀e∈u.storage.entries,Stored u.storage.heap e.storage) ∧
    u.storage.entries.map (Entry.value u.storage.heap)=v.object.provider.entries := by
  have was : ∀e∈u.storage.entries,e∈s.storage.entries := fun e he => entries ▸ he
  refine ⟨fun e he => (h.entry m (was e he) he).1,?_⟩
  rw [provider,← h.table]
  have same : ∀e∈u.storage.entries,e.value u.storage.heap=e.value s.storage.heap :=
    fun e he => (h.entry m (was e he) he).2
  rw [List.map_congr_left same,entries]

/-- A view that the step leaves where it is. -/
theorem Simulates.slot_stays {s u : KeyThreads} {w v : Shared Nat Snapshots Operation Answer}
    (h : s.Simulates w) (m : s.Moves u) {i : Nat} (seen : ∀p∈s.phases,i∉p.hidden)
    (here : u.storage.views[i]?=s.storage.views[i]?)
    (there : v.object.views[i]?=w.object.views[i]?) :
    v.object.views[i]?=u.storage.views[i]?.map (Option.map (View.exposes u.storage.heap)) := by
  rw [there,h.shown i seen,here]
  cases hi : s.storage.views[i]? with
  | none => rfl
  | some x =>
    cases x with
    | none => rfl
    | some x =>
      have before := List.mem_of_getElem? hi
      have after := List.mem_of_getElem? (here.trans hi)
      exact congrArg (some ∘ some) (h.view m before after).2.symm

/-- The step leaves the views. -/
theorem Keeps.leaves_views {s u : KeyThreads} {w v : Shared Nat Snapshots Operation Answer} {t : Nat}
    {p q : Phase} (k : Keeps s u w v t p q) (h : s.Simulates w)
    (views : u.storage.views=s.storage.views) (same : v.object.views=w.object.views)
    (hidden : ∀i∈p.hidden,i∈q.hidden)
    (stored : ∀e∈u.storage.entries,Stored u.storage.heap e.storage)
    (table : u.storage.entries.map (Entry.value u.storage.heap)=v.object.provider.entries)
    (fits : q.Fits u.storage v.object (v.status t)) : u.Simulates v := by
  refine k.simulates h stored ?_ table ?_ fits
  · intro x hx
    exact (h.view k.moves (views ▸ hx) hx).1
  · intro i now
    have mine : i∉p.hidden := fun hi =>
      now q (List.mem_of_getElem? k.turn.now) (hidden i hi)
    exact h.slot_stays k.moves (k.turn.hidden_before mine now) (by rw [views]) (by rw [same])

/-- The step changes the view in slot `i`, here or there, and leaves the table. -/
theorem Keeps.changes_slot {s u : KeyThreads} {w v : Shared Nat Snapshots Operation Answer} {t : Nat}
    {p q : Phase} (k : Keeps s u w v t p q) (h : s.Simulates w) (i : Nat)
    (entries : u.storage.entries=s.storage.entries)
    (provider : v.object.provider=w.object.provider)
    (others : ∀ j,j≠i → u.storage.views[j]?=s.storage.views[j]? ∧
      v.object.views[j]?=w.object.views[j]?)
    (tied : ∀ x,u.storage.views[i]?=some (some x) → x.Tied u.storage.heap)
    (hidden : ∀j∈p.hidden,j=i)
    (shown : i∈q.hidden ∨
      v.object.views[i]?=u.storage.views[i]?.map (Option.map (View.exposes u.storage.heap)))
    (fits : q.Fits u.storage v.object (v.status t)) : u.Simulates v := by
  obtain ⟨stored,table⟩ := h.table_stays k.moves entries provider
  refine k.simulates h stored ?_ table ?_ fits
  · intro x hx
    obtain ⟨j,hj⟩ := List.mem_iff_getElem?.mp hx
    by_cases same : j=i
    · subst same
      exact tied x hj
    · have before := List.mem_of_getElem? ((others j same).1.symm.trans hj)
      exact (h.view k.moves before hx).1
  · intro j now
    by_cases same : j=i
    · subst same
      rcases shown with hi|hi
      · exact absurd hi (now q (List.mem_of_getElem? k.turn.now))
      · exact hi
    · have mine : j∉p.hidden := fun hj => same (hidden j hj)
      obtain ⟨here,there⟩ := others j same
      exact h.slot_stays k.moves (k.turn.hidden_before mine now) here there

/-- The step leaves table and views and changes no view of the shared object. -/
theorem Keeps.leaves_storage {s u : KeyThreads} {w v : Shared Nat Snapshots Operation Answer} {t : Nat}
    {p q : Phase} (k : Keeps s u w v t p q) (h : s.Simulates w)
    (entries : u.storage.entries=s.storage.entries) (views : u.storage.views=s.storage.views)
    (object : v.object=w.object) (hidden : ∀i∈p.hidden,i∈q.hidden)
    (fits : q.Fits u.storage v.object (v.status t)) : u.Simulates v := by
  obtain ⟨stored,table⟩ := h.table_stays (v := v) k.moves entries (by rw [object])
  exact k.leaves_views h views (by rw [object]) hidden stored table fits

/-- A step between two accesses to the table: the thread goes on, and nothing else is seen of it. -/
theorem Simulates.goes_on {s : KeyThreads} {w : Shared Nat Snapshots Operation Answer}
    (h : s.Simulates w) {t : Nat} {p q : Phase} (hp : s.phases[t]?=some p) {S : KeyStorage}
    {o : Option Nat} (moves : s.Moves (goTo ⟨S,o,s.phases⟩ t q))
    (entries : S.entries=s.storage.entries) (views : S.views=s.storage.views)
    (mutex : o=s.owner ∧ q.holds=p.holds ∨ s.owner=none ∧ o=some t ∧ q.holds=true ∨
      s.owner=some t ∧ o=none ∧ q.holds=false)
    (slots : ∀i∈q.slots,i∈p.slots) (hidden : ∀i∈p.hidden,i∈q.hidden)
    (fits : q.Fits S w.object (w.status t)) : Simulates (goTo ⟨S,o,s.phases⟩ t q) w := by
  have same : ∀ i,i∉p.slots → s.storage.views[i]?≠none →
      S.views[i]?=s.storage.views[i]? ∧ w.object.views[i]?=w.object.views[i]? :=
    fun i _ _ => ⟨congrArg (fun (v : List (Option View)) => v[i]?) views,rfl⟩
  have k : Keeps s (goTo ⟨S,o,s.phases⟩ t q) w w t p q :=
    ⟨goTo_turn hp S o q,moves,mutex,h.slots_kept hp slots,fun _ _ => rfl,same⟩
  exact k.leaves_storage h entries views rfl hidden fits

/-- A view in use by a thread that has not emptied it is seen as it is. -/
theorem Simulates.own_slot {s : KeyThreads} {w : Shared Nat Snapshots Operation Answer}
    (h : s.Simulates w) {t : Nat} {p : Phase} (hp : s.phases[t]?=some p) {i : Nat}
    (mine : i∈p.slots) (seen : i∉p.hidden) :
    w.object.views[i]?=s.storage.views[i]?.map (Option.map (View.exposes s.storage.heap)) := by
  apply h.shown
  intro x hx
  obtain ⟨r,hr⟩ := List.mem_iff_getElem?.mp hx
  by_cases same : r=t
  · subst same
    rw [hp] at hr
    rw [← Option.some.inj hr]
    exact seen
  · exact fun hi => h.apart t r p x hp hr (Ne.symm same) i mine (Phase.hidden_slots hi)

/-- A step is matched by a path of the shared object that shows the same. -/
def Matched (u : KeyThreads) (w : Shared Nat Snapshots Operation Answer)
    (out : Option (Event Nat Operation Answer)) : Prop :=
  ∃ ops v,SharedObject.Path Snapshots.answers w out.toList ops v ∧ u.Simulates v

theorem Simulates.unseen {u : KeyThreads} {w : Shared Nat Snapshots Operation Answer}
    (h : u.Simulates w) : u.Matched w none := ⟨[],w,SharedObject.Path.refl,h⟩

/-- The call of thread `t` takes effect. -/
theorem Simulates.effect {u : KeyThreads} {w : Shared Nat Snapshots Operation Answer} {t : Nat}
    {op : Operation} {x : Snapshots} {result : Bool} (pending : w.status t=.pending op)
    (one : w.object.step op=(x,result))
    (h : u.Simulates (w.turn t x (.answered ⟨result,Snapshots.handed op x result⟩))) :
    u.Matched w none := by
  have path := SharedObject.Path.refl.effect (m := Snapshots.answers) (w := w) t op pending
  rw [Snapshots.answers_step one] at path
  exact ⟨_,_,path,h⟩

theorem effect_calls {w : Shared Nat Snapshots Operation Answer} {t : Nat} (x : Snapshots)
    (st : Status Operation Answer) : ∀ r,r≠t → (w.turn t x st).status r=w.status r :=
  fun _ ne => w.turn_other ne x st

/-- A call that fails before it has reached anything. -/
theorem Simulates.fails {s : KeyThreads} {w : Shared Nat Snapshots Operation Answer}
    (h : s.Simulates w) {t : Nat} {op : Operation} (hp : s.phases[t]?=some (.called op))
    (one : w.object.step op=(w.object,false)) :
    (s.goTo t (.returning [] false)).Matched w none := by
  refine Simulates.effect (h.fits t _ hp) one ?_
  rw [Snapshots.handed_false]
  have turn := goTo_turn hp s.storage s.owner (.returning [] false)
  have k : Keeps s _ w (w.turn t w.object (.answered false)) t _ _ := ⟨turn,
    turn.passes rfl (List.Perm.refl _) h.sound,Or.inl ⟨rfl,rfl⟩,by simp [Phase.slots],
    effect_calls _ _,fun _ _ _ => ⟨rfl,rfl⟩⟩
  exact k.leaves_storage h rfl rfl rfl (by simp [Phase.hidden]) (by simp [Phase.Fits])

theorem enter_add {s : KeyThreads} {w : Shared Nat Snapshots Operation Answer} (h : s.Simulates w)
    {t : Nat} {memory : StaticKeyProvider.AddAllocation} {keyID : UInt32}
    {algorithm : AeadAlgorithm} {key : Span}
    (hp : s.phases[t]?=some (.called (.add memory keyID algorithm key))) :
    (s.enter t (.add memory keyID algorithm key)).Matched w none := by
  have moves := enter_moves h.sound hp
  cases key with
  | null n => exact h.fails hp rfl
  | bytes b =>
    have refused : w.object.provider.add memory keyID algorithm (.bytes b)=
        (false,w.object.provider) → (s.goTo t (.returning [] false)).Matched w none := by
      intro same
      apply h.fails hp
      show (Snapshots.mk (w.object.provider.add memory keyID algorithm (.bytes b)).2 _,
        (w.object.provider.add memory keyID algorithm (.bytes b)).1)=_
      rw [same]
    rw [enter] at moves ⊢
    by_cases invalid : keyID=0 ∨ b.length=0
    · rw [if_pos invalid]
      exact refused (if_pos invalid)
    by_cases denied : memory.storage=false
    · rw [if_neg invalid,if_pos denied]
      exact refused ((if_neg invalid).trans (if_pos denied))
    rw [if_neg invalid,if_neg denied] at moves ⊢
    refine (h.goes_on hp moves rfl rfl (Or.inl ⟨rfl,rfl⟩) (by simp [Phase.slots,Section.slots])
      (by simp [Phase.hidden]) ?_).unseen
    refine ⟨s.storage.heap.length,b,rfl,?_,invalid,by simpa using denied,h.fits t _ hp⟩
    exact (content_alloc _ _ _).trans (if_pos rfl)

theorem enter_getKey {s : KeyThreads} {w : Shared Nat Snapshots Operation Answer} (h : s.Simulates w)
    {t i : Nat} {keyID : UInt32} {algorithm : AeadAlgorithm}
    (hp : s.phases[t]?=some (.called (.getKey i keyID algorithm))) :
    (s.enter t (.getKey i keyID algorithm)).Matched w none := by
  have moves := enter_moves h.sound hp
  have seen := h.own_slot hp (i := i) (by simp [Phase.slots,slotsOf]) (by simp [Phase.hidden])
  rw [enter] at moves ⊢
  rcases hv : s.storage.views[i]? with _|_|x
  · rw [hv] at seen
    exact h.fails hp (by simp [Snapshots.step,Snapshots.getKey,seen])
  · rw [hv] at seen
    exact h.fails hp (by simp [Snapshots.step,Snapshots.getKey,seen])
  rw [hv] at moves seen
  dsimp only at moves ⊢
  have here : (setSlot s.storage i (some {})).views[i]?=some (some ({} : View)) :=
    List.getElem?_set_self (List.getElem?_eq_some_iff.mp hv).1
  have others : ∀ j,j≠i → (setSlot s.storage i (some {})).views[j]?=s.storage.views[j]? :=
    fun j ne => List.getElem?_set_ne (Ne.symm ne)
  have k : Keeps s _ w w t _ _ := ⟨goTo_turn hp (setSlot s.storage i (some {})) s.owner
    (.emptied i keyID algorithm x.storage),moves,Or.inl ⟨rfl,rfl⟩,
    h.slots_kept hp (by simp [Phase.slots,slotsOf]),
    fun _ _ => rfl,fun j hj _ => ⟨others j (by simpa [Phase.slots,slotsOf] using hj),rfl⟩⟩
  refine (k.changes_slot h i rfl rfl (fun j ne => ⟨others j ne,rfl⟩) ?_ (by simp [Phase.hidden])
    (Or.inl (by simp [Phase.hidden])) ?_).unseen
  · intro y hy
    exact Or.inl (Option.some.inj (Option.some.inj (hy.symm.trans here)))
  · exact ⟨⟨here,_,seen⟩,h.fits t _ hp⟩

theorem getElem?_push_ne {α : Type*} (xs : List α) (x : α) {i : Nat} (ne : i≠xs.length) :
    (xs++[x])[i]?=xs[i]? := by
  rw [List.getElem?_append]
  split_ifs with inside
  · rfl
  · rw [List.getElem?_eq_none (by simp; omega),List.getElem?_eq_none (by omega)]

theorem Phase.Fits.present {s : KeyStorage} {x : Snapshots} {st : Status Operation Answer} {p : Phase}
    (fits : p.Fits s x st) {i : Nat} (hi : i∈p.hidden) :
    s.views[i]?≠none ∧ x.views[i]?≠none := by
  have emptied : ∀ j,Emptied s x j → i∈[j] → s.views[i]?≠none ∧ x.views[i]?≠none := by
    intro j before hj
    obtain ⟨here,u,there⟩ := before
    rw [List.mem_singleton.mp hj]
    simp [here,there]
  have inside : ∀ c : Section,c.Fits s x st → i∈c.slots →
      s.views[i]?≠none ∧ x.views[i]?≠none := by
    intro c before hc
    cases c with
    | getKey j keyID algorithm => exact emptied j before.1 hc
    | _ => exact absurd hc (by simp [Section.slots])
  cases p with
  | emptied j keyID algorithm old => exact emptied j fits.1 hi
  | waiting c => exact inside c fits hi
  | inside c => exact inside c fits hi
  | binding j keyID storage => exact emptied j ⟨fits.2.1,_,fits.2.2.1⟩ hi
  | _ => exact absurd hi (by simp [Phase.hidden])

theorem Simulates.views_length {s : KeyThreads} {w : Shared Nat Snapshots Operation Answer}
    (h : s.Simulates w) : w.object.views.length=s.storage.views.length := by
  have same : ∀ i : Nat,w.object.views[i]?=none ↔ s.storage.views[i]?=none := by
    intro i
    by_cases seen : ∀p∈s.phases,i∉p.hidden
    · rw [h.shown i seen,Option.map_eq_none_iff]
    · obtain ⟨p,hp,hi⟩ : ∃p∈s.phases,i∈p.hidden := by simpa using seen
      obtain ⟨t,ht⟩ := List.mem_iff_getElem?.mp hp
      obtain ⟨here,there⟩ := (h.fits t p ht).present hi
      simp [here,there]
  simp only [List.getElem?_eq_none_iff] at same
  exact Nat.le_antisymm ((same _).mpr (Nat.le_refl _)) ((same _).mp (Nat.le_refl _))

theorem enter_declare {s : KeyThreads} {w : Shared Nat Snapshots Operation Answer}
    (h : s.Simulates w) {t : Nat} (hp : s.phases[t]?=some (.called .declare)) :
    (s.enter t .declare).Matched w none := by
  have moves := enter_moves h.sound hp
  rw [enter] at moves ⊢
  let x : Snapshots := ⟨w.object.provider,w.object.views++[some Snapshots.noKey]⟩
  refine Simulates.effect (x := x) (h.fits t _ hp) rfl ?_
  have here : s.storage.declare.views[s.storage.views.length]?=some (some ({} : View)) :=
    List.getElem?_concat_length
  have there : x.views[s.storage.views.length]?=some (some Snapshots.noKey) := by
    rw [← h.views_length]
    exact List.getElem?_concat_length
  have others : ∀ j,j≠s.storage.views.length →
      s.storage.declare.views[j]?=s.storage.views[j]? ∧ x.views[j]?=w.object.views[j]? := by
    intro j ne
    refine ⟨getElem?_push_ne _ _ ne,getElem?_push_ne _ _ ?_⟩
    rw [h.views_length]
    exact ne
  have k : Keeps s _ w (w.turn t x (.answered true)) t _ _ := ⟨goTo_turn hp s.storage.declare
    s.owner (.returning [] true),moves,Or.inl ⟨rfl,rfl⟩,by simp [Phase.slots],effect_calls _ _,?_⟩
  · refine k.changes_slot h _ rfl rfl others ?_ (by simp [Phase.hidden]) (Or.inr ?_)
      (by simp [Phase.Fits])
    · intro y hy
      exact Or.inl (Option.some.inj (Option.some.inj (hy.symm.trans here)))
    · show x.views[_]?=Option.map (Option.map _) s.storage.declare.views[_]?
      rw [here,there]
      rfl
  · intro j _ present
    apply others
    intro last
    exact present (by simp [last])

theorem enter_destroy {s : KeyThreads} {w : Shared Nat Snapshots Operation Answer} (h : s.Simulates w)
    {t i : Nat} (hp : s.phases[t]?=some (.called (.destroy i))) :
    (s.enter t (.destroy i)).Matched w none := by
  have moves := enter_moves h.sound hp
  have seen := h.own_slot hp (i := i) (by simp [Phase.slots,slotsOf]) (by simp [Phase.hidden])
  rw [enter] at moves ⊢
  rcases hv : s.storage.views[i]? with _|_|x
  · rw [hv] at seen
    exact h.fails hp (by simp [Snapshots.step,Snapshots.destroy,seen])
  · rw [hv] at seen
    exact h.fails hp (by simp [Snapshots.step,Snapshots.destroy,seen])
  rw [hv] at moves seen
  dsimp only at moves ⊢
  let y : Snapshots := ⟨w.object.provider,w.object.views.set i none⟩
  have one : w.object.step (.destroy i)=(y,true) := by
    simp [Snapshots.step,Snapshots.destroy,seen,y]
  refine Simulates.effect (h.fits t _ hp) one ?_
  have here : (setSlot s.storage i none).views[i]?=some (none : Option View) :=
    List.getElem?_set_self (List.getElem?_eq_some_iff.mp hv).1
  have there : y.views[i]?=some none :=
    List.getElem?_set_self (List.getElem?_eq_some_iff.mp seen).1
  have others : ∀ j,j≠i → (setSlot s.storage i none).views[j]?=s.storage.views[j]? ∧
      y.views[j]?=w.object.views[j]? :=
    fun j ne => ⟨List.getElem?_set_ne (Ne.symm ne),List.getElem?_set_ne (Ne.symm ne)⟩
  have k : Keeps s _ w (w.turn t y (.answered true)) t _ _ := ⟨goTo_turn hp
    (setSlot s.storage i none) s.owner (.returning [x.storage] true),moves,Or.inl ⟨rfl,rfl⟩,
    by simp [Phase.slots],effect_calls _ _,
    fun j hj _ => others j (by simpa [Phase.slots,slotsOf] using hj)⟩
  refine k.changes_slot h i rfl rfl others ?_ (by simp [Phase.hidden]) (Or.inr ?_)
    (by simp [Phase.Fits])
  · intro z hz
    exact absurd (hz.symm.trans here) (by simp)
  · exact there.trans (congrArg (Option.map (Option.map _)) here).symm

theorem enter_copy {s : KeyThreads} {w : Shared Nat Snapshots Operation Answer} (h : s.Simulates w)
    {t i j : Nat} (hp : s.phases[t]?=some (.called (.copy i j))) :
    (s.enter t (.copy i j)).Matched w none := by
  have moves := enter_moves h.sound hp
  have source := h.own_slot hp (i := i) (by simp [Phase.slots,slotsOf]) (by simp [Phase.hidden])
  have target := h.own_slot hp (i := j) (by simp [Phase.slots,slotsOf]) (by simp [Phase.hidden])
  rw [enter] at moves ⊢
  rcases hv : s.storage.views[i]? with _|_|x
  · rw [hv] at source
    exact h.fails hp (by simp [Snapshots.step,Snapshots.copy,source])
  · rw [hv] at source
    exact h.fails hp (by simp [Snapshots.step,Snapshots.copy,source])
  rcases hu : s.storage.views[j]? with _|_|u
  · rw [hu] at target
    exact h.fails hp (by simp [Snapshots.step,Snapshots.copy,source,target])
  · rw [hu] at target
    exact h.fails hp (by simp [Snapshots.step,Snapshots.copy,source,target])
  rw [hv,hu] at moves
  rw [hv] at source
  rw [hu] at target
  dsimp only at moves ⊢
  let y : Snapshots :=
    ⟨w.object.provider,w.object.views.set j (some (x.exposes s.storage.heap))⟩
  have one : w.object.step (.copy i j)=(y,true) := by
    simp [Snapshots.step,Snapshots.copy,source,target,y]
  refine Simulates.effect (h.fits t _ hp) one ?_
  let S : KeyStorage :=
    ⟨retain s.storage.heap x.storage,s.storage.entries,s.storage.views.set j (some x)⟩
  have here : S.views[j]?=some (some x) :=
    List.getElem?_set_self (List.getElem?_eq_some_iff.mp hu).1
  have there : y.views[j]?=some (some (x.exposes s.storage.heap)) :=
    List.getElem?_set_self (List.getElem?_eq_some_iff.mp target).1
  have others : ∀ l,l≠j → S.views[l]?=s.storage.views[l]? ∧ y.views[l]?=w.object.views[l]? :=
    fun l ne => ⟨List.getElem?_set_ne (Ne.symm ne),List.getElem?_set_ne (Ne.symm ne)⟩
  have k : Keeps s _ w (w.turn t y (.answered true)) t _ _ := ⟨goTo_turn hp S s.owner
    (.returning [u.storage] true),moves,Or.inl ⟨rfl,rfl⟩,by simp [Phase.slots],effect_calls _ _,
    fun l hl _ => others l (fun same => hl (by simp [Phase.slots,slotsOf,same]))⟩
  have kept := h.view moves (List.mem_of_getElem? hv) (List.mem_of_getElem? here)
  refine k.changes_slot h j rfl rfl others ?_ (by simp [Phase.hidden]) (Or.inr ?_)
    (by simp [Phase.Fits])
  · intro z hz
    rw [← Option.some.inj (Option.some.inj (here.symm.trans hz))]
    exact kept.1
  · refine there.trans ?_
    rw [← kept.2]
    exact (congrArg (Option.map (Option.map _)) here).symm

/-! ### Critical sections -/

theorem Simulates.findLocked {s : KeyThreads} {w : Shared Nat Snapshots Operation Answer}
    (h : s.Simulates w) (keyID : UInt32) (algorithm : AeadAlgorithm) :
    w.object.provider.findLocked keyID algorithm=
      (s.storage.findLocked keyID algorithm).map (Entry.value s.storage.heap) := by
  rw [StaticKeyProvider.findLocked,← h.table]
  exact KeyedTable.lookup_map Entry.pair StaticKeyProvider.Entry.pair (Entry.value s.storage.heap)
    (fun _ => rfl) _ s.storage.entries

/-- The sequential provider finds the key that the entry found stands for. -/
theorem Simulates.getKey {s : KeyThreads} {w : Shared Nat Snapshots Operation Answer}
    (h : s.Simulates w) (keyID : UInt32) (algorithm : AeadAlgorithm) :
    w.object.provider.getKey keyID algorithm=(s.storage.findLocked keyID algorithm).map
      (fun e => ⟨e.keyID,(e.value s.storage.heap).storage⟩) := by
  rw [StaticKeyProvider.getKey,h.findLocked]
  cases found : s.storage.findLocked keyID algorithm with
  | none => rfl
  | some e => exact if_neg (h.stored e (KeyStorage.mem_of_findLocked found)).bytes

/-- The critical section of thread `t` ends here, with the given pointers to release. -/
theorem section_keeps {s : KeyThreads} {w : Shared Nat Snapshots Operation Answer} {t : Nat}
    {c : Section} {now later : List (Option Nat)} {result : Bool} {S : KeyStorage} {x : Snapshots}
    (hp : s.phases[t]?=some (.inside c))
    (moves : s.Moves (goTo ⟨S,s.owner,s.phases⟩ t (.leaving now later result)))
    (views : S.views=s.storage.views)
    (others : ∀ i,i∉c.slots → x.views[i]?=w.object.views[i]?) :
    Keeps s (goTo ⟨S,s.owner,s.phases⟩ t (.leaving now later result)) w
      (w.turn t x (.answered result)) t (.inside c) (.leaving now later result) :=
  ⟨goTo_turn hp S s.owner _,moves,Or.inl ⟨rfl,rfl⟩,by simp [Phase.slots],effect_calls _ _,
    fun i hi _ => ⟨congrArg (fun (v : List (Option View)) => v[i]?) views,others i hi⟩⟩

theorem perform_add {s : KeyThreads} {w : Shared Nat Snapshots Operation Answer} (h : s.Simulates w)
    {t : Nat} {memory : StaticKeyProvider.AddAllocation} {keyID : UInt32}
    {algorithm : AeadAlgorithm} {storage : Option Nat}
    (hp : s.phases[t]?=some (.inside (.add memory keyID algorithm storage))) :
    (s.perform t (.add memory keyID algorithm storage)).Matched w none := by
  have moves := perform_moves h.sound hp
  obtain ⟨a,b,rfl,hb,valid,granted,pending⟩ := h.fits t _ hp
  have bytes : KeyStorage.bytesAt s.storage.heap (some a)=b := by rw [KeyStorage.bytesAt,hb]; rfl
  have new : Stored s.storage.heap (some a) := ⟨a,b,rfl,hb,fun he => valid (Or.inr (by simp [he]))⟩
  have looked := h.findLocked keyID algorithm
  have add : w.object.provider.add memory keyID algorithm (.bytes b)=
      if missing : w.object.provider.findLocked keyID algorithm=none then
        if memory.entry=false then (false,w.object.provider)
        else (true,w.object.provider.pushEntry ⟨keyID,algorithm,b⟩ missing)
      else (true,w.object.provider.replaceStorage keyID algorithm b) :=
    (if_neg valid).trans (if_neg (by simp [granted]))
  have effect : ∀ (p : StaticKeyProvider) (result : Bool),
      w.object.provider.add memory keyID algorithm (.bytes b)=(result,p) →
      w.object.step (.add memory keyID algorithm (.bytes b))=
        (⟨p,w.object.views⟩,result) := by
    intro p result same
    show (Snapshots.mk (w.object.provider.add memory keyID algorithm (.bytes b)).2 _,
      (w.object.provider.add memory keyID algorithm (.bytes b)).1)=_
    rw [same]
  rw [perform] at moves ⊢
  cases found : s.storage.findLocked keyID algorithm with
  | some e =>
    rw [found] at moves looked
    dsimp only at moves ⊢
    rw [dif_neg (by simp [looked])] at add
    refine Simulates.effect pending (effect _ _ add) ?_
    have k := section_keeps (w := w)
      (x := ⟨w.object.provider.replaceStorage keyID algorithm b,w.object.views⟩) hp moves rfl
      (fun _ _ => rfl)
    refine k.leaves_views h rfl rfl (by simp [Phase.hidden,Section.slots]) ?_ ?_
      (by simp [Phase.Fits])
    · intro y hy
      rcases KeyedTable.mem_modify Entry.pair hy with old|⟨z,_,rfl⟩
      · exact h.stored y old
      · exact new
    · have pair : e.pair=(keyID,algorithm) := (KeyedTable.lookup_key Entry.pair found).2
      show (KeyedTable.modify Entry.pair e.pair _ s.storage.entries).map _=
        KeyedTable.modify StaticKeyProvider.Entry.pair (keyID,algorithm) _ w.object.provider.entries
      rw [pair,← h.table]
      apply KeyedTable.modify_map
      · exact fun _ => rfl
      · intro y
        simp [Entry.value,bytes]
  | none =>
    rw [found] at moves looked
    dsimp only at moves ⊢
    rw [dif_pos (by simp [looked])] at add
    by_cases full : memory.entry=false
    · rw [if_pos full] at moves add ⊢
      refine Simulates.effect pending (effect _ _ add) ?_
      exact (section_keeps hp moves rfl (fun _ _ => rfl)).leaves_storage h rfl rfl rfl
        (by simp [Phase.hidden,Section.slots]) (by simp [Phase.Fits])
    · rw [if_neg full] at moves add ⊢
      refine Simulates.effect pending (effect _ _ add) ?_
      have k := section_keeps (w := w) (x := ⟨w.object.provider.pushEntry ⟨keyID,algorithm,b⟩
        (by simp [looked]),w.object.views⟩) hp moves rfl (fun _ _ => rfl)
      refine k.leaves_views h rfl rfl (by simp [Phase.hidden,Section.slots]) ?_ ?_
        (by simp [Phase.Fits])
      · intro y hy
        rcases List.mem_append.mp hy with old|hy
        · exact h.stored y old
        · rw [List.mem_singleton.mp hy]
          exact new
      · show (s.storage.entries++[Entry.mk keyID algorithm (some a)]).map _=
          w.object.provider.entries++[_]
        rw [List.map_append,← h.table]
        simp [Entry.value,bytes]

theorem perform_remove {s : KeyThreads} {w : Shared Nat Snapshots Operation Answer}
    (h : s.Simulates w) {t : Nat} {keyID : UInt32} {algorithm : AeadAlgorithm}
    (hp : s.phases[t]?=some (.inside (.remove keyID algorithm))) :
    (s.perform t (.remove keyID algorithm)).Matched w none := by
  have moves := perform_moves h.sound hp
  have looked := h.findLocked keyID algorithm
  rw [perform] at moves ⊢
  cases found : s.storage.findLocked keyID algorithm with
  | none =>
    rw [found] at moves looked
    dsimp only at moves ⊢
    have one : w.object.step (.remove keyID algorithm)=(w.object,false) := by
      show (Snapshots.mk (w.object.provider.remove keyID algorithm).2 _,
        (w.object.provider.remove keyID algorithm).1)=_
      rw [StaticKeyProvider.remove_none looked]
    refine Simulates.effect (h.fits t _ hp) one ?_
    exact (section_keeps hp moves rfl (fun _ _ => rfl)).leaves_storage h rfl rfl rfl
      (by simp [Phase.hidden,Section.slots]) (by simp [Phase.Fits])
  | some e =>
    rw [found] at moves looked
    dsimp only at moves ⊢
    obtain ⟨removed,entries⟩ := StaticKeyProvider.remove_some looked
    have one : w.object.step (.remove keyID algorithm)=
        (⟨(w.object.provider.remove keyID algorithm).2,w.object.views⟩,true) := by
      show (_,(w.object.provider.remove keyID algorithm).1)=_
      rw [removed]
    refine Simulates.effect (h.fits t _ hp) one ?_
    have k := section_keeps (w := w)
      (x := ⟨(w.object.provider.remove keyID algorithm).2,w.object.views⟩) hp moves rfl
      (fun _ _ => rfl)
    refine k.leaves_views h rfl rfl (by simp [Phase.hidden,Section.slots]) ?_ ?_
      (by simp [Phase.Fits])
    · intro y hy
      exact h.stored y (List.mem_of_mem_eraseP hy)
    · have pair : e.pair=(keyID,algorithm) := (KeyedTable.lookup_key Entry.pair found).2
      show (KeyedTable.erase Entry.pair e.pair s.storage.entries).map _=
        (w.object.provider.remove keyID algorithm).2.entries
      rw [entries,pair,← h.table]
      exact KeyedTable.erase_map Entry.pair StaticKeyProvider.Entry.pair (fun _ => rfl) _ _

theorem perform_clear {s : KeyThreads} {w : Shared Nat Snapshots Operation Answer}
    (h : s.Simulates w) {t : Nat} (hp : s.phases[t]?=some (.inside .clear)) :
    (s.perform t .clear).Matched w none := by
  have moves := perform_moves h.sound hp
  rw [perform] at moves ⊢
  refine Simulates.effect (x := ⟨w.object.provider.clear,w.object.views⟩) (h.fits t _ hp) rfl ?_
  have k := section_keeps (w := w) (x := ⟨w.object.provider.clear,w.object.views⟩) hp moves rfl
    (fun _ _ => rfl)
  exact k.leaves_views h rfl rfl (by simp [Phase.hidden,Section.slots]) (by simp) rfl
    (by simp [Phase.Fits])

theorem perform_getKey {s : KeyThreads} {w : Shared Nat Snapshots Operation Answer}
    (h : s.Simulates w) {t i : Nat} {keyID : UInt32} {algorithm : AeadAlgorithm}
    (hp : s.phases[t]?=some (.inside (.getKey i keyID algorithm))) :
    (s.perform t (.getKey i keyID algorithm)).Matched w none := by
  have moves := perform_moves h.sound hp
  obtain ⟨⟨blank,u,there⟩,pending⟩ := h.fits t _ hp
  have looked := h.getKey keyID algorithm
  have inside : i<w.object.views.length := (List.getElem?_eq_some_iff.mp there).1
  have one : w.object.step (.getKey i keyID algorithm)=
      (⟨w.object.provider,w.object.views.set i
        (some ((w.object.provider.getKey keyID algorithm).getD Snapshots.noKey))⟩,
        (w.object.provider.getKey keyID algorithm).isSome) := by
    simp [Snapshots.step,Snapshots.getKey,there]
  have others : ∀ (x : KeyMaterialView) (j : Nat),j≠i →
      (w.object.views.set i (some x))[j]?=w.object.views[j]? :=
    fun x j ne => List.getElem?_set_ne (Ne.symm ne)
  rw [perform] at moves ⊢
  cases found : s.storage.findLocked keyID algorithm with
  | none =>
    rw [found] at moves looked
    dsimp only at moves ⊢
    rw [looked] at one
    refine Simulates.effect pending one ?_
    have k := section_keeps (w := w) (x := ⟨w.object.provider,w.object.views.set i
      (some Snapshots.noKey)⟩) hp moves rfl
      (fun j hj => others _ j (by simpa [Section.slots] using hj))
    refine k.changes_slot h i rfl rfl (fun j ne => ⟨rfl,others _ j ne⟩) ?_
      (by simp [Phase.hidden,Section.slots]) (Or.inr ?_) (by simp [Phase.Fits])
    · intro y hy
      exact Or.inl (Option.some.inj (Option.some.inj (hy.symm.trans blank)))
    · show (w.object.views.set i (some Snapshots.noKey))[i]?=Option.map _ s.storage.views[i]?
      rw [blank,List.getElem?_set_self inside]
      rfl
  | some e =>
    have he := KeyStorage.mem_of_findLocked found
    have stored := h.stored e he
    have owned : e.storage≠none := by
      obtain ⟨a,b,ha,_⟩ := stored
      simp [ha]
    rw [found] at moves looked
    dsimp only at moves ⊢
    rw [if_neg owned] at moves ⊢
    rw [looked] at one
    apply Simulates.effect pending one
    rw [Option.map_some,Option.isSome_some,Option.getD_some,Snapshots.handed_set inside]
    have k : Keeps s _ w (w.turn t ⟨w.object.provider,w.object.views.set i
        (some ⟨e.keyID,(e.value s.storage.heap).storage⟩)⟩
        (.answered ⟨true,some ⟨e.keyID,(e.value s.storage.heap).storage⟩⟩)) t _ _ :=
      ⟨goTo_turn hp ⟨retain s.storage.heap e.storage,s.storage.entries,s.storage.views⟩ s.owner
        (.binding i e.keyID e.storage),moves,Or.inl ⟨rfl,rfl⟩,
        h.slots_kept hp (by simp [Phase.slots,Section.slots]),
        effect_calls _ _,fun j hj _ =>
          ⟨rfl,others _ j (by simpa [Phase.slots,Section.slots] using hj)⟩⟩
    have kept := h.entry moves he he
    refine k.changes_slot h i rfl rfl (fun j ne => ⟨rfl,others _ j ne⟩) ?_
      (by simp [Phase.hidden,Section.slots]) (Or.inl (by simp [Phase.hidden])) ?_
    · intro y hy
      exact Or.inl (Option.some.inj (Option.some.inj (hy.symm.trans blank)))
    · have same : (e.value s.storage.heap).storage=
          KeyStorage.bytesAt (retain s.storage.heap e.storage) e.storage :=
        congrArg StaticKeyProvider.Entry.storage kept.2.symm
      refine ⟨kept.1,blank,?_,?_⟩
      · show (w.object.views.set i (some ⟨e.keyID,(e.value s.storage.heap).storage⟩))[i]?=_
        rw [List.getElem?_set_self inside,same]
        rfl
      · rw [Shared.turn_self,same]
        rfl

/-! ### Any step -/

theorem enter_matched {s : KeyThreads} {w : Shared Nat Snapshots Operation Answer}
    (h : s.Simulates w) {t : Nat} {op : Operation} (hp : s.phases[t]?=some (.called op)) :
    (s.enter t op).Matched w none := by
  have waits : ∀ c : Section,c.pointers=[] → c.slots=[] →
      Section.Fits s.storage w.object (w.status t) c →
      (s.goTo t (.waiting c)).Matched w none := by
    intro c pointers slots fits
    have turn := goTo_turn hp s.storage s.owner (.waiting c)
    have moves : s.Moves (s.goTo t (.waiting c)) := by
      apply turn.passes rfl
      · simp [Phase.pointers,pointers,goTo]
      · exact h.sound
    exact (h.goes_on hp moves rfl rfl (Or.inl ⟨rfl,rfl⟩) (by simp [Phase.slots,slots])
      (by simp [Phase.hidden]) fits).unseen
  cases op with
  | add memory keyID algorithm key => exact enter_add h hp
  | remove keyID algorithm => exact waits _ rfl rfl (h.fits t _ hp)
  | clear => exact waits _ rfl rfl (h.fits t _ hp)
  | getKey i keyID algorithm => exact enter_getKey h hp
  | declare => exact enter_declare h hp
  | copy i j => exact enter_copy h hp
  | destroy i => exact enter_destroy h hp

theorem perform_matched {s : KeyThreads} {w : Shared Nat Snapshots Operation Answer}
    (h : s.Simulates w) {t : Nat} {c : Section} (hp : s.phases[t]?=some (.inside c)) :
    (s.perform t c).Matched w none := by
  cases c with
  | add memory keyID algorithm storage => exact perform_add h hp
  | remove keyID algorithm => exact perform_remove h hp
  | clear => exact perform_clear h hp
  | getKey i keyID algorithm => exact perform_getKey h hp

/-- `Bind` shows what the call found. -/
theorem binding_matched {s : KeyThreads} {w : Shared Nat Snapshots Operation Answer}
    (h : s.Simulates w) {t i : Nat} {keyID : UInt32} {storage : Option Nat}
    (hp : s.phases[t]?=some (.binding i keyID storage)) : (s.advance t).1.Matched w none := by
  have moves := advance_moves h.sound h.blank t
  obtain ⟨⟨a,b,rfl,hb,ne⟩,blank,there,answered⟩ := h.fits t _ hp
  have bytes : KeyStorage.bytesAt s.storage.heap (some a)=b := by rw [KeyStorage.bytesAt,hb]; rfl
  rw [bytes] at answered
  have read : KeyStorage.bytesAt (retain s.storage.heap (some a)) (some a)=b := by
    rw [KeyStorage.bytesAt,content_retain,hb]
    rfl
  have bound : s.bound keyID (some a)=⟨keyID,some a,b.length,some a⟩ := by
    show (⟨_,if KeyStorage.bytesAt (retain s.storage.heap (some a)) (some a)=[] then none else _,
      (KeyStorage.bytesAt (retain s.storage.heap (some a)) (some a)).length,_⟩ : View)=_
    rw [read,if_neg ne]
  have shows : View.exposes s.storage.heap ⟨keyID,some a,b.length,some a⟩=⟨keyID,b⟩ := by
    rw [View.exposes,bytes,List.take_length]
  have full : ¬(View.mk keyID (some a) b.length (some a)).isEmpty=true := by
    simpa [View.isEmpty] using ne
  have answer : s.answered keyID (some a)=⟨true,some ⟨keyID,b⟩⟩ := by
    rw [KeyThreads.answered,bound,if_neg full,shows]
  have one : s.advance t=(goTo ⟨setSlot s.storage i (some ⟨keyID,some a,b.length,some a⟩),s.owner,
      s.phases⟩ t (.leaving [] [] ⟨true,some ⟨keyID,b⟩⟩),none) := by
    rw [advance,hp]
    dsimp only
    rw [bound,answer]
  rw [one] at moves ⊢
  have here : (setSlot s.storage i (some ⟨keyID,some a,b.length,some a⟩)).views[i]?=
      some (some ⟨keyID,some a,b.length,some a⟩) :=
    List.getElem?_set_self (List.getElem?_eq_some_iff.mp blank).1
  have others : ∀ j,j≠i →
      (setSlot s.storage i (some ⟨keyID,some a,b.length,some a⟩)).views[j]?=s.storage.views[j]? :=
    fun j ne => List.getElem?_set_ne (Ne.symm ne)
  have k : Keeps s _ w w t _ _ := ⟨goTo_turn hp (setSlot s.storage i
    (some ⟨keyID,some a,b.length,some a⟩)) s.owner (.leaving [] [] ⟨true,some ⟨keyID,b⟩⟩),moves,
    Or.inl ⟨rfl,rfl⟩,by simp [Phase.slots],fun _ _ => rfl,fun j hj _ =>
      ⟨others j (by simpa [Phase.slots] using hj),rfl⟩⟩
  refine (k.changes_slot h i rfl rfl (fun j ne => ⟨others j ne,rfl⟩) ?_ (by simp [Phase.hidden])
    (Or.inr ?_) answered).unseen
  · intro x hx
    rw [← Option.some.inj (Option.some.inj (here.symm.trans hx))]
    exact Or.inr ⟨rfl,by rw [← bytes]; rfl,a,b,rfl,hb,ne⟩
  · show w.object.views[i]?=Option.map (Option.map (View.exposes s.storage.heap))
      (setSlot s.storage i (some ⟨keyID,some a,b.length,some a⟩)).views[i]?
    rw [there,here,bytes,Option.map_some,Option.map_some,shows]

theorem advance_matched {s : KeyThreads} {w : Shared Nat Snapshots Operation Answer}
    (h : s.Simulates w) (t : Nat) : (s.advance t).1.Matched w (s.advance t).2 := by
  have moves := advance_moves h.sound h.blank t
  rcases hp : s.phases[t]? with _|p
  · rw [advance,hp]
    exact h.unseen
  have fits := h.fits t p hp
  cases p with
  | idle =>
    rw [advance,hp]
    exact h.unseen
  | called op =>
    rw [advance,hp]
    exact enter_matched h hp
  | emptied i keyID algorithm old =>
    rw [advance,hp] at moves ⊢
    exact (h.goes_on hp moves rfl rfl (Or.inl ⟨rfl,rfl⟩) (by simp [Phase.slots,Section.slots])
      (by simp [Phase.hidden,Section.slots]) fits).unseen
  | waiting c =>
    rw [advance,hp] at moves ⊢
    dsimp only at moves ⊢
    by_cases available : s.owner=none
    · rw [if_pos available] at moves ⊢
      exact (h.goes_on hp moves rfl rfl (Or.inr (Or.inl ⟨available,rfl,rfl⟩)) (fun _ hi => hi)
        (fun _ hi => hi) fits).unseen
    · rw [if_neg available]
      exact h.unseen
  | inside c =>
    rw [advance,hp]
    exact perform_matched h hp
  | binding i keyID storage =>
    have matched := binding_matched h hp
    have silent : (s.advance t).2=none := by rw [advance,hp]
    rw [silent]
    exact matched
  | leaving now later answer =>
    cases now with
    | nil =>
      rw [advance,hp] at moves ⊢
      have mine : s.owner=some t := (h.locked t).mpr ⟨_,hp,rfl⟩
      exact (h.goes_on hp moves rfl rfl (Or.inr (Or.inr ⟨mine,rfl,rfl⟩)) (by simp [Phase.slots])
        (by simp [Phase.hidden]) fits).unseen
    | cons x now =>
      rw [advance,hp] at moves ⊢
      exact (h.goes_on hp moves rfl rfl (Or.inl ⟨rfl,rfl⟩) (by simp [Phase.slots])
        (by simp [Phase.hidden]) fits).unseen
  | returning later answer =>
    cases later with
    | nil =>
      rw [advance,hp] at moves ⊢
      refine ⟨[],w.turn t w.object .idle,SharedObject.Path.refl.ret t answer fits,?_⟩
      have k : Keeps s _ w (w.turn t w.object .idle) t _ _ := ⟨goTo_turn hp s.storage s.owner .idle,
        moves,Or.inl ⟨rfl,rfl⟩,by simp [Phase.slots],effect_calls _ _,fun _ _ _ => ⟨rfl,rfl⟩⟩
      exact k.leaves_storage h rfl rfl rfl (by simp [Phase.hidden]) (by simp [Phase.Fits])
    | cons x later =>
      rw [advance,hp] at moves ⊢
      exact (h.goes_on hp moves rfl rfl (Or.inl ⟨rfl,rfl⟩) (by simp [Phase.slots])
        (by simp [Phase.hidden]) fits).unseen

theorem call_matched {s : KeyThreads} {w : Shared Nat Snapshots Operation Answer} (h : s.Simulates w)
    (t : Nat) (op : Operation) :
    (s.step (.call t op)).1.Matched w (s.step (.call t op)).2 := by
  have moves := step_moves h.sound h.blank (.call t op)
  rw [step] at moves ⊢
  split at moves
  · rename_i hp
    split_ifs at moves with available
    · rw [if_pos available]
      refine ⟨[],w.turn t w.object (.pending op),SharedObject.Path.refl.call t op (h.fits t _ hp),?_⟩
      have apart : ∀ (r : Nat) (x : Phase),r≠t → s.phases[r]?=some x →
          ∀i∈(Phase.called op).slots,i∉x.slots := by
        intro r x _ hx i hi used
        have all := List.all_eq_true.mp available x (List.mem_of_getElem? hx)
        have unused := List.all_eq_true.mp all i used
        simp [show i∈slotsOf op from hi] at unused
      have k : Keeps s _ w (w.turn t w.object (.pending op)) t _ _ := ⟨goTo_turn hp s.storage
        s.owner (.called op),moves,Or.inl ⟨rfl,rfl⟩,apart,effect_calls _ _,fun _ _ _ => ⟨rfl,rfl⟩⟩
      exact k.leaves_storage h rfl rfl rfl (by simp [Phase.hidden]) (by simp [Phase.Fits])
    · rw [if_neg available]
      exact h.unseen
  · exact h.unseen

theorem step_matched {s : KeyThreads} {w : Shared Nat Snapshots Operation Answer} (h : s.Simulates w)
    (x : Action) : (s.step x).1.Matched w (s.step x).2 := by
  cases x with
  | call t op => exact call_matched h t op
  | advance t => exact advance_matched h t

theorem start_simulates (threads : Nat) :
    (start threads).Simulates (SharedObject.start Snapshots.empty) := by
  have idle : ∀ (t : Nat) (p : Phase),(start threads).phases[t]?=some p → p=.idle := by
    intro t p hp
    exact List.eq_of_mem_replicate (List.mem_of_getElem? hp)
  refine ⟨start_sound threads,?_,?_,by simp [start,KeyStorage.empty],by simp [start,KeyStorage.empty],
    rfl,fun i _ => rfl,?_⟩
  · intro t
    constructor
    · intro owner
      exact absurd owner (by simp [start])
    · rintro ⟨p,hp,holds⟩
      rw [idle t p hp] at holds
      exact absurd holds (by simp [Phase.holds])
  · intro t r p q hp _ _
    rw [idle t p hp]
    simp [Phase.slots]
  · intro t p hp
    rw [idle t p hp]
    rfl

/-- Any schedule of any number of threads shows what the shared object shows on some path. -/
theorem run_simulates (threads : Nat) (xs : List Action) :
    ∃ ops v,SharedObject.Path Snapshots.answers (SharedObject.start Snapshots.empty)
      (shown machine (start threads) xs) ops v ∧ (machine.after (start threads) xs).Simulates v :=
  simulated machine Snapshots.answers Simulates (fun _ _ x h => step_matched h x)
    (start_simulates threads) xs

/-- However the threads' accesses to mutex, table, views and blocks interleave, their calls are
answered, with the keys that `GetKey` hands out, as if each took effect at one moment between its call
and its return; and in between the table and every view hold what they hold there, but for the views
that `GetKey` is filling. -/
theorem linearizable (threads : Nat) (xs : List Action) : ∃ ops : List (Nat×Operation×Answer),
    Linearizes Snapshots.answers Snapshots.empty ops (shown machine (start threads) xs) ∧
    let s := (machine.after (start threads) xs)
    let x := Snapshots.answers.after Snapshots.empty (ops.map (·.2.1))
    s.storage.entries.map (Entry.value s.storage.heap)=x.provider.entries ∧
    ∀ i,(∀p∈s.phases,i∉p.hidden) →
      s.storage.views[i]?.map (Option.map (View.exposes s.storage.heap))=x.views[i]? := by
  obtain ⟨ops,v,path,related⟩ := run_simulates threads xs
  refine ⟨ops,path.linearizes,?_⟩
  have reached := path.legal.1
  simp only [SharedObject.start] at reached
  dsimp only
  rw [← reached]
  exact ⟨related.table,fun i seen => (related.shown i seen).symm⟩

/-! ### Blocks -/

theorem reached_related (threads : Nat) (xs : List Action) :
    ∃ v,(machine.after (start threads) xs).Simulates v := by
  obtain ⟨_,v,_,related⟩ := run_simulates threads xs
  exact ⟨v,related⟩

theorem run_moves (threads : Nat) (xs ys : List Action) :
    (machine.after (start threads) xs).Moves (machine.after (start threads) (xs++ys)) := by
  induction ys using List.reverseRecOn with
  | nil =>
    obtain ⟨_,related⟩ := reached_related threads xs
    rw [List.append_nil]
    exact Advances.refl related.sound
  | append_singleton ys y ih =>
    obtain ⟨_,related⟩ := reached_related threads (xs++ys)
    rw [← List.append_assoc,machine.after_snoc]
    exact Advances.trans ih (step_moves related.sound related.blank y)

/-- Whatever the threads do, a block keeps its bytes as long as the table, a view or a call on its way
owns it, and holds zeros from then on. -/
theorem blocks_retained (threads : Nat) (xs ys : List Action) (a : Nat) (b : Bytes)
    (made : content (machine.after (start threads) xs).storage.heap a=some b)
    (owned : some a∈(machine.after (start threads) xs).pointers) :
    content (machine.after (start threads) (xs++ys)).storage.heap a=
      some (if some a∈(machine.after (start threads) (xs++ys)).pointers then b
        else List.replicate b.length 0) := by
  obtain ⟨_,related⟩ := reached_related threads xs
  have moves := run_moves threads xs ys
  have inside := related.sound.allocated a owned
  by_cases still : some a∈(machine.after (start threads) (xs++ys)).pointers
  · rw [if_pos still,(moves.kept a inside still).2,made]
  · rw [if_neg still,moves.lost a inside owned still,made,Option.map_some,
      KeyMaterialStorage.erase_eq]

/-- One thread adds a key and then removes it, while another holds the view it got: the block keeps its
bytes, until that view is given up. -/
theorem blocks_retained_held :
    let turns (t n : Nat) : List Action := List.replicate n (.advance t)
    let added : List Action := .call 0 (.add {} 1 .aes128GCM (.bytes [7,8]))::turns 0 5
    let held : List Action := .call 1 .declare::turns 1 2++.call 1 (.getKey 0 1 .aes128GCM)::turns 1 7++
      .call 0 (.remove 1 .aes128GCM)::turns 0 5
    let dropped : List Action := held++.call 1 (.destroy 0)::turns 1 3
    (machine.after (start 2) (added++held)).storage.entries=[] ∧
    content (machine.after (start 2) (added++held)).storage.heap 0=some [7,8] ∧
    content (machine.after (start 2) (added++dropped)).storage.heap 0=some [0,0] := by
  intro turns added held dropped
  have made : content (machine.after (start 2) added).storage.heap 0=some [7,8] := by decide
  have owned : some 0∈(machine.after (start 2) added).pointers := by decide
  have holds : some 0∈(machine.after (start 2) (added++held)).pointers := by decide +kernel
  have lost : some 0∉(machine.after (start 2) (added++dropped)).pointers := by decide +kernel
  refine ⟨List.length_eq_zero_iff.mp (by decide +kernel),?_,?_⟩
  · rw [blocks_retained 2 added held 0 [7,8] made owned,if_pos holds]
  · rw [blocks_retained 2 added dropped 0 [7,8] made owned,if_neg lost]
    rfl

end KeyThreads
end ESPressioSecurity
