import Ldk.TebMap.State

/-!
# The TEB of the current thread

`LdkCurrentTeb` and the lookups go by the address of the `ETHREAD`. A TEB stays behind when its
thread exits, so a thread that gets the address of one that has exited finds the TEB of that one.

- `Own`: what a thread expects of its TEB.
- `NoLeftover`: a thread is not created at an address for which a TEB is still there.
- `Owned`: then every TEB that bears the address of a running thread is that thread's own.
- `current_teb_is_own`: so are the TEBs that `LdkCurrentTeb` and the lookups return.
- `reused_address_gets_old_teb`: runs in which they are not.
-/

namespace Ldk.TebMap

open TransitionSystem

/-- The TEB was initialised for the thread, bears its id and holds only what it has stored. -/
structure Own (t : Thread) (teb : Teb) : Prop where
  owner : teb.owner = t.serial
  uniqueThread : teb.uniqueThread = t.threadId
  slots : ∀ kind index, teb.slots kind index ≠ 0 → ⟨kind, index, teb.slots kind index⟩ ∈ t.stored

/-- No thread is created at an address that a TEB still bears. -/
def NoLeftover (s : State) : Action → Prop
  | .createThread thread _ => ∀ a teb, s.tebs a = some teb → teb.thread ≠ thread
  | _ => True

/-- Every TEB that bears the address of a running thread is the thread's own. -/
structure Owned (s : State) : Prop where
  own : ∀ a teb t, s.tebs a = some teb → s.threads teb.thread = some t → Own t teb
  null : s.threads 0 = none

/-! ## Finding and creating a TEB -/

/-- What a walk through a list of TEBs finds is a TEB that the test accepts. -/
theorem exists_of_find {s : State} {l : List Nat} {p : Teb → Bool} {a : Nat}
    (h : l.find? (fun a => (s.tebs a).any p) = some a) :
    ∃ teb, s.tebs a = some teb ∧ p teb = true := by
  have hfound : (s.tebs a).any p = true := List.find?_some (p := fun a => (s.tebs a).any p) h
  cases hteb : s.tebs a with
  | none => rw [hteb] at hfound; cases hfound
  | some teb => exact ⟨teb, rfl, by rw [hteb] at hfound; exact hfound⟩

theorem lookTebByThread_some {s : State} {thread a : Nat} (h : s.lookTebByThread thread = some a) :
    ∃ teb, s.tebs a = some teb ∧ teb.thread = thread := by
  obtain ⟨teb, hteb, hthread⟩ := exists_of_find h
  exact ⟨teb, hteb, of_decide_eq_true hthread⟩

theorem referenceTebByThread_some {s : State} {thread a : Nat}
    (h : s.referenceTebByThread thread = some a) :
    ∃ teb, s.tebs a = some teb ∧ teb.thread = thread := by
  obtain ⟨teb, hteb, haccepted⟩ := exists_of_find h
  exact ⟨teb, hteb, of_decide_eq_true (Bool.and_eq_true_iff.mp haccepted).1⟩

/-- What passes the check of the cached pointer bears the address. -/
theorem cachedTeb_some {s : State} {thread a : Nat} {stack : Option Nat}
    (h : s.cachedTeb thread stack = some a) :
    ∃ teb, s.tebs a = some teb ∧ teb.thread = thread := by
  cases stack with
  | none => cases h
  | some low =>
    simp only [State.cachedTeb] at h
    split at h
    · cases h
    · split at h
      · cases h
      · next teb hteb =>
        split at h
        · next hcheck =>
          obtain rfl := Option.some.inj h
          exact ⟨teb, hteb, hcheck.2⟩
        · cases h

@[simp] theorem cacheTeb_tebs (s : State) (a : Nat) (stack : Option Nat) :
    (s.cacheTeb a stack).tebs = s.tebs := by
  cases stack <;> rfl

@[simp] theorem cacheTeb_threads (s : State) (a : Nat) (stack : Option Nat) :
    (s.cacheTeb a stack).threads = s.threads := by
  cases stack <;> rfl

/-- `LdkCurrentTeb` returns a TEB that bears the address of the thread. It changes no TEB, and it
initialises one at most. -/
theorem currentTeb_spec (s : State) (thread : Nat) (t : Thread) (stack : Option Nat)
    (fresh : Nat) :
    (s.currentTeb thread t stack fresh).2.threads = s.threads ∧
      (∃ teb, (s.currentTeb thread t stack fresh).2.tebs (s.currentTeb thread t stack fresh).1 =
        some teb ∧ teb.thread = thread) ∧
      ((s.currentTeb thread t stack fresh).2.tebs = s.tebs ∨
        (s.currentTeb thread t stack fresh).2.tebs =
          Function.update s.tebs fresh (some (s.createTeb thread t))) := by
  unfold State.currentTeb
  split
  · next a hcached => exact ⟨rfl, cachedTeb_some hcached, Or.inl rfl⟩
  · split
    · next a hlook =>
      refine ⟨cacheTeb_threads s a stack, ?_, Or.inl (cacheTeb_tebs s a stack)⟩
      rw [cacheTeb_tebs]
      exact lookTebByThread_some hlook
    · -- the TEB is created, on one list or the other
      have hcreated : ∃ teb, Function.update s.tebs fresh (some (s.createTeb thread t)) fresh =
          some teb ∧ teb.thread = thread := ⟨_, Function.update_self _ _ _, rfl⟩
      split
      · refine ⟨by rw [cacheTeb_threads]; rfl, ?_, Or.inr (by rw [cacheTeb_tebs]; rfl)⟩
        rw [cacheTeb_tebs]
        exact hcreated
      · refine ⟨by rw [cacheTeb_threads]; rfl, ?_, Or.inr (by rw [cacheTeb_tebs]; rfl)⟩
        rw [cacheTeb_tebs]
        exact hcreated

/-- A new TEB is the thread's own. -/
theorem own_createTeb (s : State) (thread : Nat) (t : Thread) : Own t (s.createTeb thread t) :=
  ⟨rfl, rfl, fun _ _ hvalue => absurd rfl hvalue⟩

/-! ## Steps -/

/-- Fewer TEBs and fewer threads. -/
theorem Owned.mono {s s' : State} (h : Owned s)
    (htebs : ∀ a teb, s'.tebs a = some teb → s.tebs a = some teb)
    (hthreads : ∀ e t, s'.threads e = some t → s.threads e = some t) : Owned s' := by
  refine ⟨fun a teb t hteb ht => h.own a teb t (htebs a teb hteb) (hthreads _ t ht), ?_⟩
  by_contra hrunning
  obtain ⟨t, ht⟩ := Option.ne_none_iff_exists'.mp hrunning
  have hnull := h.null
  rw [hthreads 0 t ht] at hnull
  cases hnull

theorem Owned.currentTeb {s : State} (h : Owned s) {thread : Nat} {t : Thread}
    (ht : s.threads thread = some t) (stack : Option Nat) (fresh : Nat) :
    Owned (s.currentTeb thread t stack fresh).2 := by
  obtain ⟨hthreads, -, htebs⟩ := currentTeb_spec s thread t stack fresh
  refine ⟨fun a teb u hteb hu => ?_, by rw [hthreads]; exact h.null⟩
  rw [hthreads] at hu
  rcases htebs with hsame | hnew
  · rw [hsame] at hteb
    exact h.own a teb u hteb hu
  · rw [hnew] at hteb
    by_cases ha : a = fresh
    · subst ha
      rw [Function.update_self] at hteb
      obtain rfl := Option.some.inj hteb
      obtain rfl : t = u := Option.some.inj (ht.symm.trans hu)
      exact own_createTeb s thread t
    · rw [Function.update_of_ne ha] at hteb
      exact h.own a teb u hteb hu

/-- A thread that stores more keeps its TEB. -/
theorem Own.record {t : Thread} {teb : Teb} (h : Own t teb) (x : Stored) :
    Own { t with stored := x :: t.stored } teb :=
  ⟨h.owner, h.uniqueThread, fun kind index hvalue => List.mem_cons_of_mem x (h.slots kind index hvalue)⟩

/-- A write to a slot of the thread's own TEB that is on record. -/
theorem Own.write {t : Thread} {teb : Teb} (h : Own t teb) (x : Stored)
    (hrecord : x.value ≠ 0 → x ∈ t.stored) :
    Own t { teb with
      slots := Function.update teb.slots x.kind
        (Function.update (teb.slots x.kind) x.index x.value) } := by
  refine ⟨h.owner, h.uniqueThread, fun kind index hvalue => ?_⟩
  by_cases hkind : kind = x.kind
  · subst hkind
    simp only [Function.update_self] at hvalue ⊢
    by_cases hindex : index = x.index
    · subst hindex
      simp only [Function.update_self] at hvalue ⊢
      exact hrecord hvalue
    · rw [Function.update_of_ne hindex] at hvalue ⊢
      exact h.slots _ index hvalue
  · simp only [Function.update_of_ne hkind] at hvalue ⊢
    exact h.slots kind index hvalue

/-- Storing a value in the thread's own TEB, and on record. -/
theorem Owned.store {s : State} (h : Owned s) {a thread : Nat} {t : Thread} {teb : Teb}
    (ht : s.threads thread = some t) (hteb : s.tebs a = some teb) (hthread : teb.thread = thread)
    (x : Stored) : Owned ((s.writeSlot a x).record thread t x) := by
  have hwritten : s.writeSlot a x = s.setTeb a { teb with
      slots := Function.update teb.slots x.kind
        (Function.update (teb.slots x.kind) x.index x.value) } := by
    simp only [State.writeSlot, hteb]
  rw [hwritten]
  refine ⟨fun b teb' u hb hu => ?_, ?_⟩
  · simp only [State.record, State.setTeb] at hb hu
    by_cases hbearer : teb'.thread = thread
    · -- a TEB of the thread itself, the one written or another
      rw [hbearer, Function.update_self] at hu
      obtain rfl := Option.some.inj hu
      by_cases hba : b = a
      · subst hba
        rw [Function.update_self] at hb
        obtain rfl := Option.some.inj hb
        have hown := h.own b teb t hteb (by rw [hthread]; exact ht)
        exact (hown.record x).write x (fun _ => List.mem_cons_self)
      · rw [Function.update_of_ne hba] at hb
        exact (h.own b teb' t hb (by rw [hbearer]; exact ht)).record x
    · rw [Function.update_of_ne hbearer] at hu
      have hba : b ≠ a := by
        rintro rfl
        rw [Function.update_self] at hb
        obtain rfl := Option.some.inj hb
        exact hbearer hthread
      rw [Function.update_of_ne hba] at hb
      exact h.own b teb' u hb hu
  · have hne : thread ≠ 0 := by
      rintro rfl
      rw [h.null] at ht; cases ht
    show Function.update s.threads thread _ 0 = none
    rw [Function.update_of_ne hne.symm]
    exact h.null

/-- Clearing a slot of any TEB. -/
theorem Owned.clearSlot {s : State} (h : Owned s) (a : Nat) (kind : SlotKind) (index : Nat) :
    Owned (s.clearSlot a kind index) := by
  unfold State.clearSlot State.writeSlot
  split
  · exact h
  · next teb hteb =>
    refine ⟨fun b teb' t hb ht => ?_, h.null⟩
    simp only [State.setTeb] at hb ht
    by_cases hba : b = a
    · subst hba
      rw [Function.update_self] at hb
      obtain rfl := Option.some.inj hb
      exact (h.own b teb t hteb ht).write ⟨kind, index, 0⟩ (fun hvalue => absurd rfl hvalue)
    · rw [Function.update_of_ne hba] at hb
      exact h.own b teb' t hb ht

theorem owned_step (s : State) (a : Action) (h : Owned s) (hen : Enabled s a)
    (hguard : NoLeftover s a) : Owned (next s a) := by
  cases a with
  | createThread thread threadId =>
    refine ⟨fun a teb t hteb ht => ?_, ?_⟩
    · have hother : teb.thread ≠ thread := hguard a teb hteb
      simp only [next, State.createThread, Function.update_of_ne hother] at ht
      exact h.own a teb t hteb ht
    · show Function.update s.threads thread _ 0 = none
      rw [Function.update_of_ne hen.1.symm]
      exact h.null
  | exitThread thread =>
    refine h.mono (fun _ _ => id) (fun e t ht => ?_)
    simp only [next, State.exitThread] at ht
    by_cases he : e = thread
    · subst he; rw [Function.update_self] at ht; cases ht
    · rw [Function.update_of_ne he] at ht; exact ht
  | currentTeb thread t stack fresh => exact h.currentTeb hen.1 stack fresh
  | setValue thread t stack fresh x =>
    simp only [next, State.setValue]
    split
    · exact h
    · obtain ⟨hthreads, ⟨teb, hteb, hthread⟩, -⟩ := currentTeb_spec s thread t stack fresh
      exact (h.currentTeb hen.1 stack fresh).store (by rw [hthreads]; exact hen.1) hteb hthread x
  | initializeStaticTls thread t stack fresh tlsIndex block =>
    simp only [next, State.initializeStaticTls]
    split
    · exact h
    · obtain ⟨hthreads, ⟨teb, hteb, hthread⟩, -⟩ := currentTeb_spec s thread t stack fresh
      have hcurrent := h.currentTeb hen.1 stack fresh
      rw [hteb]
      dsimp only
      split
      · exact hcurrent.store (by rw [hthreads]; exact hen.1) hteb hthread _
      · exact hcurrent
  | clearSlot a kind index => exact h.clearSlot a kind index
  | terminateTeb a =>
    simp only [next, State.terminateTeb]
    split
    · exact h
    · -- the TEB bears no address any more
      refine ⟨fun b teb' t hb ht => ?_, h.null⟩
      simp only [State.setTeb] at hb ht
      by_cases hba : b = a
      · subst hba
        rw [Function.update_self] at hb
        obtain rfl := Option.some.inj hb
        have hnull : s.threads 0 = some t := ht
        rw [h.null] at hnull; cases hnull
      · rw [Function.update_of_ne hba] at hb
        exact h.own b teb' t hb ht
  | freeTeb a =>
    refine h.mono (fun b teb hb => ?_) (fun _ _ => id)
    simp only [next, State.freeTeb] at hb
    by_cases hba : b = a
    · subst hba; rw [Function.update_self] at hb; cases hb
    · rw [Function.update_of_ne hba] at hb; exact hb
  | writeStack | beginShutdown | moveTebList | popTemporaryTeb | initializeTebMap =>
    exact h.mono (fun _ _ => id) (fun _ _ => id)

theorem owned_of_reachable {peb : Nat} :
    ∀ s, (tebMap peb).Reachable NoLeftover s → Owned s := by
  refine System.Reachable.invariant ?_ (fun s a h hen hguard => owned_step s a h hen hguard)
  rintro s rfl
  exact ⟨nofun, rfl⟩

/-! ## Every thread sees its own TEB -/

/-- When no thread is created at an address that a TEB still bears, the TEBs that `LdkCurrentTeb`
returns to a running thread and that the lookups find for it are the thread's own. -/
theorem current_teb_is_own {peb : Nat} {s : State} (hreach : (tebMap peb).Reachable NoLeftover s)
    {thread : Nat} {t : Thread} (ht : s.threads thread = some t) (stack : Option Nat)
    (fresh : Nat) :
    (∃ teb, (s.currentTeb thread t stack fresh).2.tebs (s.currentTeb thread t stack fresh).1 =
      some teb ∧ Own t teb) ∧
      ∀ a, s.lookTebByThread thread = some a ∨ s.referenceTebByThread thread = some a →
        ∃ teb, s.tebs a = some teb ∧ Own t teb := by
  have howned := owned_of_reachable s hreach
  constructor
  -- what is found or created bears the address of the thread
  · obtain ⟨hthreads, ⟨teb, hteb, hthread⟩, -⟩ := currentTeb_spec s thread t stack fresh
    refine ⟨teb, hteb, (howned.currentTeb ht stack fresh).own _ teb t hteb ?_⟩
    rw [hthreads, hthread]
    exact ht
  · rintro a (hlook | hreference)
    · obtain ⟨teb, hteb, hthread⟩ := lookTebByThread_some hlook
      exact ⟨teb, hteb, howned.own a teb t hteb (by rw [hthread]; exact ht)⟩
    · obtain ⟨teb, hteb, hthread⟩ := referenceTebByThread_some hreference
      exact ⟨teb, hteb, howned.own a teb t hteb (by rw [hthread]; exact ht)⟩

/-! ## Runs -/

/-- A thread that is created at an address with a TEB in the map gets that TEB as it stands. -/
theorem leftover_teb_is_returned {s : State} {thread threadId a : Nat}
    (h : s.lookTebByThread thread = some a) (t : Thread) (fresh : Nat) :
    (s.createThread thread threadId).currentTeb thread t none fresh =
      (a, s.createThread thread threadId) := by
  have hlook : (s.createThread thread threadId).lookTebByThread thread = some a := h
  simp only [State.currentTeb, State.cachedTeb, hlook, State.cacheTeb]

/-- A thread stores a value in a TLS slot and exits. -/
def exitRun : List Action :=
  [.createThread 16 100, .setValue 16 ⟨100, 0, []⟩ none 1 ⟨.tls, 3, 7⟩, .exitThread 16]

/-- A thread at a reused address gets a TEB with the thread id and the slots of the thread
before it. -/
theorem reused_address_gets_old_teb :
    ∃ s t teb, (tebMap 1).Reachable Always s ∧ s.threads 16 = some t ∧
      (s.currentTeb 16 t none 2).2.tebs (s.currentTeb 16 t none 2).1 = some teb ∧
      t.threadId = 200 ∧ teb.uniqueThread = 100 ∧ t.stored = [] ∧ teb.slots .tls 3 = 7 := by
  let run : List Action := exitRun ++ [.createThread 16 200]
  exact ⟨(tebMap 1).exec (initialState 1) run, ⟨200, 1, []⟩, _,
    System.reachable_exec _ run rfl (by decide), by decide, rfl, rfl, rfl, rfl, rfl⟩

/-- The state in which the next thread has been created at an address of its own. -/
def nextThread : State :=
  (tebMap 1).next ((tebMap 1).exec (initialState 1) exitRun) (.createThread 32 200)

/-- The condition is met by such a run, and the next thread gets a TEB of its own. -/
theorem new_address_gets_own_teb :
    ∃ teb, (nextThread.currentTeb 32 ⟨200, 1, []⟩ none 2).2.tebs
      (nextThread.currentTeb 32 ⟨200, 1, []⟩ none 2).1 = some teb ∧ Own ⟨200, 1, []⟩ teb := by
  have hexit : (tebMap 1).Reachable NoLeftover ((tebMap 1).exec (initialState 1) exitRun) :=
    System.reachable_exec _ exitRun rfl
      ⟨⟨by decide, nofun⟩, ⟨by decide, trivial⟩, ⟨by decide, trivial⟩, trivial⟩
  have hother : NoLeftover ((tebMap 1).exec (initialState 1) exitRun) (.createThread 32 200) := by
    intro a teb hteb
    have hbearer : (((tebMap 1).exec (initialState 1) exitRun).tebs a).all (·.thread = 16) := by
      show Option.all _ (Function.update (Function.update (fun _ => none) 1 (some _)) 1 (some _) a)
      by_cases ha : a = 1
      · subst ha; rw [Function.update_self]; rfl
      · rw [Function.update_of_ne ha, Function.update_of_ne ha]; rfl
    rw [hteb] at hbearer
    have hthread : teb.thread = 16 := of_decide_eq_true hbearer
    omega
  have hrunning : nextThread.threads 32 = some ⟨200, 1, []⟩ := by decide
  have hfree : (tebMap 1).enabled ((tebMap 1).exec (initialState 1) exitRun)
      (.createThread 32 200) := by decide
  exact (current_teb_is_own (hexit.step hfree hother) hrunning none 2).1

end Ldk.TebMap
