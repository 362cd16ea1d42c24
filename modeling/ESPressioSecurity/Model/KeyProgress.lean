import ESPressioSecurity.Model.KeyLinearization

namespace ESPressioSecurity

open Framework SharedHeap

namespace KeyThreads

open KeyStorage (Operation Entry View)

/-- Steps a thread still has to make, at most; an entry put into the table is paid for there. -/
def Phase.work : Phase → Nat
  | .idle => 0
  | .called _ => 8
  | .emptied _ _ _ _ => 7
  | .waiting _ => 6
  | .inside _ => 5
  | .binding _ _ _ => 3
  | .leaving now later _ => now.length+later.length+2
  | .returning later _ => later.length+1

/-- `Clear` takes one step for each entry, so each entry counts. -/
def work (s : KeyThreads) : Nat := 2*s.storage.entries.length+(s.phases.map Phase.work).sum

theorem sum_set {α : Type*} (f : α → Nat) {xs : List α} {i : Nat} {x : α} (hx : xs[i]?=some x)
    (y : α) : ((xs.set i y).map f).sum+f x=(xs.map f).sum+f y := by
  have swap := (perm_set f hx y).sum_nat
  simp only [List.sum_cons] at swap
  omega

/-- Thread `t` has come nearer to the end of its call. -/
theorem goTo_work {s : KeyThreads} {t : Nat} {p : Phase} (hp : s.phases[t]?=some p) (S : KeyStorage)
    (o : Option Nat) (q : Phase)
    (less : 2*S.entries.length+q.work<2*s.storage.entries.length+p.work) :
    (goTo ⟨S,o,s.phases⟩ t q).work<s.work := by
  have swap := sum_set Phase.work hp q
  show 2*S.entries.length+((s.phases.set t q).map Phase.work).sum<_
  rw [work]
  omega

theorem enter_work {s : KeyThreads} {t : Nat} {op : Operation}
    (hp : s.phases[t]?=some (.called op)) : (s.enter t op).work<s.work := by
  have ended : ∀ result,(s.goTo t (.returning [] result)).work<s.work := fun result =>
    goTo_work hp s.storage s.owner _ (by simp [Phase.work])
  cases op with
  | add memory keyID algorithm key =>
    cases key with
    | null n => exact ended false
    | bytes b =>
      rw [enter]
      split_ifs
      · exact ended false
      · exact ended false
      · exact goTo_work hp {s.storage with heap := alloc s.storage.heap b} s.owner _
          (by simp [Phase.work])
  | remove keyID algorithm => exact goTo_work hp s.storage s.owner _ (by simp [Phase.work])
  | clear => exact goTo_work hp s.storage s.owner _ (by simp [Phase.work])
  | getKey i keyID algorithm =>
    rw [enter]
    split
    · exact goTo_work hp (setSlot s.storage i (some {})) s.owner _ (by simp [Phase.work,setSlot])
    · exact ended false
  | declare =>
    exact goTo_work hp s.storage.declare s.owner _ (by simp [Phase.work,KeyStorage.declare])
  | copy i j =>
    rw [enter]
    split
    · rename_i v w _ _
      exact goTo_work hp ⟨retain s.storage.heap v.storage,s.storage.entries,
        s.storage.views.set j (some v)⟩ s.owner _ (by simp [Phase.work])
    · exact ended false
  | destroy i =>
    rw [enter]
    split
    · exact goTo_work hp (setSlot s.storage i none) s.owner _ (by simp [Phase.work,setSlot])
    · exact ended false

theorem modify_length (k : UInt32×AeadAlgorithm) (f : Entry → Entry) (hf : ∀ e,(f e).pair=e.pair)
    (xs : List Entry) : (KeyedTable.modify Entry.pair k f xs).length=xs.length := by
  have keys := congrArg List.length (KeyedTable.modify_keys Entry.pair k f hf xs)
  simpa using keys

theorem perform_work {s : KeyThreads} {t : Nat} {c : Section}
    (hp : s.phases[t]?=some (.inside c)) : (s.perform t c).work<s.work := by
  have failed : (s.goTo t (.leaving [] [] false)).work<s.work :=
    goTo_work hp s.storage s.owner _ (by simp [Phase.work])
  cases c with
  | add memory keyID algorithm storage =>
    rw [perform]
    split
    · rename_i found _
      refine goTo_work hp ⟨s.storage.heap,KeyedTable.modify Entry.pair found.pair
        (fun e => {e with storage := storage}) s.storage.entries,s.storage.views⟩ s.owner _ ?_
      show 2*(KeyedTable.modify Entry.pair found.pair _ s.storage.entries).length+_<_
      rw [modify_length]
      · simp [Phase.work]
      · exact fun _ => rfl
    · split_ifs
      · exact goTo_work hp s.storage s.owner _ (by simp [Phase.work])
      · refine goTo_work hp ⟨s.storage.heap,s.storage.entries++[Entry.mk keyID algorithm storage],
          s.storage.views⟩ s.owner _ ?_
        simp only [List.length_append,List.length_singleton,Phase.work,List.length_nil]
        omega
  | remove keyID algorithm =>
    rw [perform]
    split
    · exact failed
    · rename_i found _
      refine goTo_work hp ⟨s.storage.heap,KeyedTable.erase Entry.pair found.pair s.storage.entries,
        s.storage.views⟩ s.owner _ ?_
      have shorter := List.length_eraseP_le (p := fun e : Entry => decide (e.pair=found.pair))
        (l := s.storage.entries)
      show 2*(s.storage.entries.eraseP _).length+_<_
      simp only [Phase.work,List.length_nil,List.length_singleton]
      omega
  | clear =>
    refine goTo_work hp ⟨s.storage.heap,[],s.storage.views⟩ s.owner _ ?_
    simp only [Phase.work,List.length_nil,List.length_map]
    omega
  | getKey i keyID algorithm =>
    rw [perform]
    split
    · exact failed
    · split_ifs
      · exact failed
      · rename_i found _ _
        exact goTo_work hp ⟨retain s.storage.heap found.storage,s.storage.entries,s.storage.views⟩
          s.owner _ (by simp [Phase.work])

/-- A turn gets a call forward unless there is none, or it waits for the mutex. -/
theorem advance_work {s : KeyThreads} {t : Nat} {p : Phase} (hp : s.phases[t]?=some p)
    (busy : p≠.idle) (lock : ∀ c,p=.waiting c → s.owner=none) :
    (s.advance t).1.work<s.work := by
  rw [advance,hp]
  cases p with
  | idle => exact absurd rfl busy
  | called op => exact enter_work hp
  | emptied i keyID algorithm old =>
    exact goTo_work hp (s.free old) s.owner _ (by simp [Phase.work,free])
  | waiting c =>
    dsimp only
    rw [if_pos (lock c rfl)]
    exact goTo_work hp s.storage (some t) _ (by simp [Phase.work])
  | inside c => exact perform_work hp
  | binding i keyID storage =>
    exact goTo_work hp (setSlot s.storage i (some (s.bound keyID storage))) s.owner _
      (by simp [Phase.work,setSlot])
  | leaving now later result =>
    cases now with
    | nil => exact goTo_work hp s.storage none _ (by simp [Phase.work])
    | cons x now =>
      refine goTo_work hp (s.free x) s.owner _ ?_
      simp only [Phase.work,free,List.length_cons]
      omega
  | returning later result =>
    cases later with
    | nil => exact goTo_work hp s.storage s.owner .idle (by simp [Phase.work])
    | cons x later =>
      exact goTo_work hp (s.free x) s.owner _ (by simp [Phase.work,free])

/-- A turn that gets no call forward changes nothing. -/
theorem advance_stays_or_works (s : KeyThreads) (t : Nat) :
    (s.advance t).1=s ∨ (s.advance t).1.work<s.work := by
  rcases hp : s.phases[t]? with _|p
  · exact Or.inl (by rw [advance,hp])
  by_cases busy : p=.idle
  · subst busy
    exact Or.inl (by rw [advance,hp])
  by_cases lock : ∀ c,p=.waiting c → s.owner=none
  · exact Or.inr (advance_work hp busy lock)
  · left
    simp only [not_forall] at lock
    obtain ⟨c,rfl,held⟩ := lock
    rw [advance,hp]
    exact congrArg Prod.fst (if_neg held)

/-- Some thread can go on as long as a call is open: the one that holds the mutex, or any other. -/
theorem Simulates.goes {s : KeyThreads} {w : SharedObject.Shared Nat Snapshots Operation Answer}
    (h : s.Simulates w) {p : Phase} (open' : p∈s.phases) (busy : p≠.idle) :
    ∃t<s.phases.length,(s.advance t).1.work<s.work := by
  cases owner : s.owner with
  | none =>
    obtain ⟨t,hp⟩ := List.mem_iff_getElem?.mp open'
    exact ⟨t,(List.getElem?_eq_some_iff.mp hp).1,advance_work hp busy (fun _ _ => owner)⟩
  | some t =>
    obtain ⟨q,hq,holds⟩ := (h.locked t).mp owner
    refine ⟨t,(List.getElem?_eq_some_iff.mp hq).1,advance_work hq ?_ ?_⟩
    · rintro rfl
      exact absurd holds (by simp [Phase.holds])
    · rintro c rfl
      exact absurd holds (by simp [Phase.holds])

/-! ### Rounds -/

/-- The turns of a schedule in which nobody calls. -/
def turns (ts : List Nat) : List Action := ts.map Action.advance

theorem turns_work (s : KeyThreads) (ts : List Nat) :
    machine.after s (turns ts)=s ∧ (∀t∈ts,(s.advance t).1=s) ∨
    (machine.after s (turns ts)).work<s.work := by
  induction ts generalizing s with
  | nil => exact Or.inl ⟨rfl,by simp⟩
  | cons t ts ih =>
    show machine.after (s.advance t).1 (turns ts)=s ∧ _ ∨
      (machine.after (s.advance t).1 (turns ts)).work<_
    rcases advance_stays_or_works s t with same|less
    · rw [same]
      rcases ih s with ⟨stays,others⟩|less
      · refine Or.inl ⟨stays,?_⟩
        intro r hr
        rcases List.mem_cons.mp hr with rfl|hr
        · exact same
        · exact others r hr
      · exact Or.inr less
    · right
      rcases ih (s.advance t).1 with ⟨stays,_⟩|less'
      · rw [stays]
        exact less
      · exact Nat.lt_trans less' less

/-- Whatever a turn does, only the phase of its own thread is replaced. -/
theorem advance_length (s : KeyThreads) (t : Nat) :
    (s.advance t).1.phases.length=s.phases.length := by
  have goes : ∀ (S : KeyStorage) (o : Option Nat) (q : Phase),
      (goTo ⟨S,o,s.phases⟩ t q).phases.length=s.phases.length := by simp [goTo]
  have enters : ∀ op,(s.enter t op).phases.length=s.phases.length := by
    intro op
    unfold enter
    cases op <;> dsimp only <;> repeat' split
    all_goals exact goes ..
  have performs : ∀ c,(s.perform t c).phases.length=s.phases.length := by
    intro c
    unfold perform
    cases c <;> dsimp only <;> repeat' split
    all_goals exact goes ..
  rw [advance]
  repeat' split
  all_goals first | rfl | exact goes .. | exact enters _ | exact performs _

theorem start_length (threads : Nat) (xs : List Action) :
    (machine.after (start threads) xs).phases.length=threads := by
  refine machine.invariant_state (I := fun s => s.phases.length=threads) xs
    List.length_replicate ?_
  intro s x _ h
  cases x with
  | advance t => exact (advance_length s t).trans h
  | call t op =>
    show (s.step (.call t op)).1.phases.length=threads
    rw [step]
    split
    · split_ifs
      · exact List.length_set.trans h
      · exact h
    · exact h

theorem idle_stays {s : KeyThreads} (idle : ∀p∈s.phases,p=.idle) (ts : List Nat) :
    machine.after s (turns ts)=s := by
  induction ts with
  | nil => rfl
  | cons t ts ih =>
    have same : (s.advance t).1=s := by
      rcases hp : s.phases[t]? with _|p
      · rw [advance,hp]
      · rw [idle p (List.mem_of_getElem? hp)] at hp
        rw [advance,hp]
    show machine.after (s.advance t).1 (turns ts)=s
    rw [same,ih]

theorem turns_append (ts rs : List Nat) : turns (ts++rs)=turns ts++turns rs := List.map_append

/-- The calls that are open when clients stop calling all end: a round gives every thread a turn, and as
many rounds as there is work bring every call to its end and leave the mutex free. Against clients
that go on calling the mutex gives no such promise. -/
theorem rounds_finish (threads : Nat) (rounds : List (List Nat)) (xs : List Action)
    (fair : ∀r∈rounds,∀t<threads,t∈r)
    (enough : (machine.after (start threads) xs).work≤rounds.length) :
    let s := machine.after (start threads) (xs++turns rounds.flatten)
    (∀p∈s.phases,p=.idle) ∧ s.owner=none := by
  have finished : ∀p∈(machine.after (start threads) (xs++turns rounds.flatten)).phases,p=.idle := by
    induction rounds generalizing xs with
    | nil =>
      obtain ⟨_,related⟩ := reached_related threads xs
      intro p hp
      by_contra busy
      rw [List.flatten_nil,turns,List.map_nil,List.append_nil] at hp
      obtain ⟨t,_,less⟩ := related.goes hp busy
      exact Nat.not_lt_zero _ (Nat.lt_of_lt_of_le less enough)
    | cons r rounds ih =>
      have rest := fun q hq => fair q (List.mem_cons_of_mem r hq)
      rw [List.flatten_cons,turns_append,← List.append_assoc]
      rcases turns_work (machine.after (start threads) xs) r with ⟨stays,stuck⟩|less
      · have idle : ∀p∈(machine.after (start threads) xs).phases,p=.idle := by
          obtain ⟨_,related⟩ := reached_related threads xs
          intro p hp
          by_contra busy
          obtain ⟨t,ht,less⟩ := related.goes hp busy
          rw [start_length] at ht
          rw [stuck t (fair r List.mem_cons_self t ht)] at less
          exact Nat.lt_irrefl _ less
        rw [machine.after_append,machine.after_append,stays,idle_stays idle]
        exact idle
      · rw [← machine.after_append] at less
        apply ih (xs++turns r) rest
        exact Nat.le_of_lt_succ (Nat.lt_of_lt_of_le less enough)
  refine ⟨finished,?_⟩
  obtain ⟨_,related⟩ := reached_related threads (xs++turns rounds.flatten)
  cases owner : (machine.after (start threads) (xs++turns rounds.flatten)).owner with
  | none => rfl
  | some t =>
    obtain ⟨p,hp,holds⟩ := (related.locked t).mp owner
    rw [finished p (List.mem_of_getElem? hp)] at holds
    exact absurd holds (by simp [Phase.holds])

/-- Two threads that want the mutex at once. -/
theorem rounds_finish_two :
    let s := machine.after (start 2) ([.call 0 .clear,.call 1 (.remove 1 .aes128GCM)]++
      turns (List.replicate 16 [1,0]).flatten)
    (∀p∈s.phases,p=.idle) ∧ s.owner=none :=
  rounds_finish 2 (List.replicate 16 [1,0]) [.call 0 .clear,.call 1 (.remove 1 .aes128GCM)]
    (by decide) (by decide)

end KeyThreads
end ESPressioSecurity
