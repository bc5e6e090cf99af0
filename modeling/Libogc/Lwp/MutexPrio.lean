import Libogc.Lwp.Mutex
/-!
# MutexPrio — the priorities of the threads that hold mutexes

`LWP_SetThreadPriority` beside the mutex calls.  Of a control block only `cur_prio`, `real_prio` and `res_cnt` matter here
(`Lwp.book`): the queues leave them alone, and the mutex code and `LWP_SetThreadPriority` change them for one thread at a
time.  `BookInv` ties them to the holders of the mutexes.
-/
namespace Libogc

open Links Runs

set_option linter.unusedSectionVars false

variable {T W : Type} [DecidableEq T] [DecidableEq W]

/-- `LWP_MAX_MUTEXES`: the size of the table `LWP_MutexInit` takes its mutexes from. -/
def lwpMaxMutexes : Nat := 64

/-- `LWP_PRIO_LOWEST`. -/
def prioLowest : Fin 256 := 1

def lwpPriotocore (prio : Fin 256) : Fin 256 := if prio &&& 128 ≠ 0 then 128 ^^^ prio else 255 ^^^ prio
def lwpPriofromcore (prio : Fin 256) : Fin 256 := if prio &&& 128 ≠ 0 then 255 ^^^ prio else 128 ^^^ prio

/-- `LWP_SetThreadPriority`, the time slices apart; it returns the priority the thread had. -/
def lwpSetThreadPriority (k : Kernel T W) (t : T) (prio : Fin 256) : Kernel T W × Fin 256 :=
  let prio := if prio < prioLowest then prioLowest else prio
  let oldPrio := lwpPriofromcore (k.thr t).realPrio
  let k := k.setThr t ({ · with realPrio := lwpPriotocore prio })
  let k :=
    if (k.thr t).resCnt = 0 ∨ (k.thr t).curPrio > (k.thr t).realPrio then
      lwpThreadChangepriority k t (k.thr t).realPrio true
    else k
  (k, oldPrio)

/-! ## The system -/

/-- The events of the mutexes, and a thread `caller` that sets the priority of a thread `t`. -/
inductive MutexPrioEvent (T W : Type) where
  | mutex (e : MutexEvent T W)
  | setPriority (caller t : T) (prio : Fin 256)
  deriving DecidableEq, Repr

def mutexPrioNext (s : MutexState T W) : MutexPrioEvent T W → MutexState T W
  | .mutex e => mutexNext s e
  | .setPriority caller t prio =>
    { s with kernel := (lwpSetThreadPriority { s.kernel with executing := caller } t prio).1 }

def mutexPrioGuard (s : MutexState T W) : MutexPrioEvent T W → Prop
  | .mutex e => mutexGuard s e
  | .setPriority caller _ _ => s.phase = .idle ∧ s.kernel.Ready caller ∧ s.calls caller = none

instance (s : MutexState T W) : ∀ e, Decidable (mutexPrioGuard s e)
  | .mutex e => inferInstanceAs (Decidable (mutexGuard s e))
  | .setPriority _ _ _ => inferInstanceAs (Decidable (_ ∧ _ ∧ _))

/-- **The mutexes, their users, and who sets priorities.** -/
def mutexPrioSystem : System (MutexState T W) (MutexPrioEvent T W) where
  enabled := mutexPrioGuard
  next := mutexPrioNext

instance (s : MutexState T W) (e : MutexPrioEvent T W) : Decidable (mutexPrioSystem.enabled s e) :=
  inferInstanceAs (Decidable (mutexPrioGuard s e))

/-! ## What the queues leave alone -/

/-- `cur_prio`, `real_prio` and `res_cnt`. -/
def Lwp.book (l : Lwp W) : Fin 256 × Fin 256 × BitVec 32 := (l.curPrio, l.realPrio, l.resCnt)

def Kernel.books (k : Kernel T W) (t : T) : Fin 256 × Fin 256 × BitVec 32 := (k.thr t).book

section Books
variable (k : Kernel T W) (t : T) (w : W)

theorem books_of_thr {k k' : Kernel T W} (h : k'.thr = k.thr) : k'.books = k.books := by
  unfold Kernel.books
  rw [h]

variable {f : Lwp W → Lwp W}

theorem books_setThr (hf : (f (k.thr t)).book = (k.thr t).book) : (k.setThr t f).books = k.books := by
  funext u
  unfold Kernel.books
  by_cases hu : u = t
  · subst hu; rw [setThr_thr_self, hf]
  · rw [setThr_thr_ne _ _ _ hu]

theorem books_ne {u : T} (hu : u ≠ t) : (k.setThr t f).books u = k.books u := by
  unfold Kernel.books
  rw [setThr_thr_ne _ _ _ hu]

@[simp] theorem setState_books (s : BitVec 32) : (k.setState t s).books = k.books := books_setThr k t rfl
@[simp] theorem setRetCode_books (s : BitVec 32) : (k.setRetCode t s).books = k.books := books_setThr k t rfl
@[simp] theorem setTq_books (f : ThrQueue → ThrQueue) : (k.setTq w f).books = k.books := rfl
@[simp] theorem setExec_books : ({ k with executing := t } : Kernel T W).books = k.books := rfl

@[simp] theorem lwpThreadSetstate_books (s : BitVec 32) : (lwpThreadSetstate k t s).books = k.books := by
  unfold lwpThreadSetstate
  split
  · exact setState_books k t _
  · rw [books_of_thr (lwpReadyBlock_thr _ _)]
    exact setState_books k t s

@[simp] theorem lwpThreadUnblock_books : (lwpThreadUnblock k t).books = k.books := by
  unfold lwpThreadUnblock
  rw [books_of_thr (lwpThreadClearstate_thr _ _ _), setState_books]

@[simp] theorem stopTimer_books : (stopTimer k t).books = k.books := by
  rw [stopTimer_eq]
  exact books_setThr k t rfl

@[simp] theorem waitTimeout_books : (waitTimeout k t).books = k.books := by
  unfold waitTimeout
  split
  · exact books_setThr k t rfl
  · rfl

@[simp] theorem remem_books (m : Mem (QId T W) T) : ({ k with mem := m } : Kernel T W).books = k.books := rfl

@[simp] theorem lwpThreadqueueDequeue_books : (lwpThreadqueueDequeue k w).1.books = k.books := by
  have hnobody : (lwpThreadqueueNobody k w).1.books = k.books := by
    unfold lwpThreadqueueNobody
    split <;> rfl
  unfold lwpThreadqueueDequeue
  cases (k.tq w).mode with
  | fifo =>
    simp only [lwpThreadqueueDequeuefifo]
    split
    · split <;> simp
    · exact hnobody
  | priority =>
    simp only [lwpThreadqueueDequeuepriority]
    split
    · split <;> simp
    · exact hnobody

@[simp] theorem lwpThreadqueueExtract_books : (lwpThreadqueueExtract k w t).books = k.books := by
  unfold lwpThreadqueueExtract
  cases (k.tq w).mode with
  | fifo =>
    simp only [lwpThreadqueueExtractfifo]
    split <;> simp
  | priority =>
    simp only [lwpThreadqueueExtractpriority]
    split <;> simp

@[simp] theorem lwpWdTickle_books : (lwpWdTickle k t).books = k.books := by
  have hrem : (lwpWdRemoveTicks k t).books = k.books := books_setThr k t rfl
  unfold lwpWdTickle lwpThreadqueueTimeout
  split
  · split
    · split <;> simp [hrem]
    · simp [hrem]
  · exact hrem

@[simp] theorem lwpThreadqueueSynchronize_books : (lwpThreadqueueSynchronize k w t).books = k.books := by
  unfold lwpThreadqueueSynchronize
  dsimp only
  rw [lwpThreadUnblock_books]
  split <;> simp

@[simp] theorem searchDone_books (a : Link (QId T W) T) (p : Nat) : (searchDone k w t a p).books = k.books := by
  unfold searchDone
  split
  · exact lwpThreadqueueSynchronize_books k t w
  · dsimp only
    split
    · split <;> rfl
    · split <;> rfl

theorem searchRound_books (e : Enq T W) (pos : Link (QId T W) T × Nat) : (searchRound k e pos).1.books = k.books := by
  unfold searchRound
  dsimp only
  split
  · split <;> simp
  · simp

@[simp] theorem enqNext_books (e : Enq T W) : (enqNext k e).1.books = k.books := by
  unfold enqNext
  split
  · simp
  · dsimp only
    split
    · refine (books_setThr _ _ ?_).trans (books_setThr _ _ ?_) <;> rfl
    · rfl
  · split
    · simp only [lwpThreadqueueEnqueuefifo]
      split <;> simp
    · rw [searchRound_books]
      rfl
  · exact searchRound_books k e _

theorem lwpThreadChangepriority_books (prio : Fin 256) (b : Bool) (u : T) : (lwpThreadChangepriority k t prio b).books u =
    if u = t then (prio, (k.thr t).realPrio, (k.thr t).resCnt) else k.books u := by
  unfold Kernel.books
  rw [lwpThreadChangepriority_thr]
  split
  · rename_i hu
    subst hu
    rw [setThr_thr_self]
    simp [Lwp.book]
  · rename_i hu
    rw [setThr_thr_ne _ _ _ hu]

end Books

/-! ## What the mutex code can do

The mutexes of `LWP_MutexInit` are of mode INHERITPRIO, belong to their holder, and answer a nested lock. -/

/-- **The ways a lock call goes on.** -/
inductive Seized (k : Kernel T W) (m : LwpMutex T) (w : W) (timeout : Bool) :
    Kernel T W × LwpMutex T × Option (Enq T W) → Prop
  | taken (lock : m.lock = .unlocked) : Seized k m w timeout ((k.setRetCode k.executing mutexSuccessful).addRes k.executing 1,
      { m with lock := .locked, holder := some k.executing, nestCnt := 1 }, none)
  | answered (lock : m.lock = .locked) (status nestCnt : BitVec 32) : Seized k m w timeout
      (k.setRetCode k.executing status, { m with nestCnt := nestCnt }, none)
  | waits (lock : m.lock = .locked) (holder : m.holder ≠ some k.executing) : Seized k m w timeout
      ((lwpThreadqueueCsenter (k.setRetCode k.executing mutexSuccessful) w).setThr k.executing
        (fun l => { l with wait := { l.wait with queue := some w } }), m, some ⟨k.executing, w, timeout, .setstate⟩)

theorem setRetCode_setRetCode (k : Kernel T W) (t : T) (a b : BitVec 32) : (k.setRetCode t a).setRetCode t b = k.setRetCode t b := by
  simp [Kernel.setRetCode, Kernel.setThr]

theorem setRetCode_executing (k : Kernel T W) (t : T) (a : BitVec 32) : (k.setRetCode t a).executing = k.executing := rfl

variable {m : LwpMutex T} {r : Bool}

theorem lwpMutexSeize_cases (k : Kernel T W) (ha : m.attrs = mutexAttr r) (w : W) (waitStatus : BitVec 32) (timeout : Bool) :
    Seized k m w timeout (lwpMutexSeize k m w waitStatus timeout) := by
  have hmode : m.attrs.mode = .inheritprio := by rw [ha]; rfl
  have hcounts : m.attrs.counts = true := by rw [ha]; rfl
  cases hl : m.lock with
  | unlocked =>
    have he : lwpMutexSeize k m w waitStatus timeout = ((k.setRetCode k.executing mutexSuccessful).addRes k.executing 1,
        { m with lock := .locked, holder := some k.executing, nestCnt := 1 }, none) := by
      simp [lwpMutexSeize, lwpMutexSeizeIrqTrylock, hl, hmode, hcounts]
    rw [he]
    exact .taken hl
  | locked =>
    by_cases hh : m.holder = some k.executing
    · cases r with
      | true =>
        have hn : m.attrs.nestBehavior = .acquire := by rw [ha]; rfl
        have he : lwpMutexSeize k m w waitStatus timeout =
            (k.setRetCode k.executing mutexSuccessful, { m with nestCnt := m.nestCnt + 1 }, none) := by
          simp [lwpMutexSeize, lwpMutexSeizeIrqTrylock, hl, hh, hn]
        rw [he]
        exact .answered hl _ _
      | false =>
        have hn : m.attrs.nestBehavior = .error := by rw [ha]; rfl
        have he : lwpMutexSeize k m w waitStatus timeout = (k.setRetCode k.executing mutexNestNotallowed, m, none) := by
          simp [lwpMutexSeize, lwpMutexSeizeIrqTrylock, hl, hh, hn, setRetCode_setRetCode]
        rw [he]
        exact .answered hl _ m.nestCnt
    · by_cases hw : waitStatus = 0
      · have he : lwpMutexSeize k m w waitStatus timeout =
            ((lwpThreadqueueCsenter (k.setRetCode k.executing mutexSuccessful) w).setThr k.executing
              (fun l => { l with wait := { l.wait with queue := some w } }), m,
              some ⟨k.executing, w, timeout, .setstate⟩) := by
          simp [lwpMutexSeize, lwpMutexSeizeIrqTrylock, hl, hh, hw, setRetCode_executing]
        rw [he]
        exact .waits hl hh
      · have hw' : ¬ waitStatus = 0#32 := hw
        have he : lwpMutexSeize k m w waitStatus timeout = (k.setRetCode k.executing waitStatus, m, none) := by
          simp [lwpMutexSeize, lwpMutexSeizeIrqTrylock, hl, hh, hw', setRetCode_setRetCode, setRetCode_executing]
        rw [he]
        exact .answered hl _ m.nestCnt

/-- What `__lwp_mutex_surrender` does to the holder: one mutex less, and its own priority back after the last. -/
def Kernel.dropRes (k : Kernel T W) (t : T) : Kernel T W :=
  let k := k.addRes t (-1)
  if (k.thr t).resCnt = 0 ∧ (k.thr t).realPrio ≠ (k.thr t).curPrio then lwpThreadChangepriority k t (k.thr t).realPrio true
  else k

/-- **The ways an unlock goes on.** -/
inductive Released (k : Kernel T W) (m : LwpMutex T) : Kernel T W × LwpMutex T × Option (BitVec 32) → Prop
  | kept (nestCnt status : BitVec 32) : Released k m (k, { m with nestCnt := nestCnt }, some status)
  | given (holder : m.holder = some k.executing) (nestCnt : BitVec 32) :
      Released k m (k.dropRes k.executing, { m with nestCnt := nestCnt, holder := none }, none)

theorem lwpMutexRelease_cases (k : Kernel T W) (ha : m.attrs = mutexAttr r) : Released k m (lwpMutexRelease k m) := by
  have hcounts : m.attrs.counts = true := by rw [ha]; rfl
  have howner : m.attrs.onlyownerrelease = true := by rw [ha]; rfl
  by_cases hh : m.holder = some k.executing
  · unfold lwpMutexRelease
    dsimp only
    rw [if_neg (by simp [hh])]
    split
    · exact .kept m.nestCnt _
    · split
      · exact .kept _ _
      · split
        · exact .kept _ _
        · have hg := Released.given hh (m.nestCnt - 1)
          simp only [hh, hcounts, true_and]
          exact hg
  · have he : lwpMutexRelease k m = (k, m, some mutexNotowner) := by
      unfold lwpMutexRelease
      rw [if_pos ⟨howner, hh⟩]
    rw [he]
    exact .kept m.nestCnt _

theorem lwpMutexHandover_cases (k : Kernel T W) (ha : m.attrs = mutexAttr r) (w : W) :
    (∃ t, (lwpThreadqueueDequeue k w).2 = some t ∧ lwpMutexHandover k m w =
      ((lwpThreadqueueDequeue k w).1.addRes t 1, { m with nestCnt := 1, holder := some t })) ∨
    ((lwpThreadqueueDequeue k w).2 = none ∧
      lwpMutexHandover k m w = ((lwpThreadqueueDequeue k w).1, { m with lock := .unlocked })) := by
  have hcounts : m.attrs.counts = true := by rw [ha]; rfl
  unfold lwpMutexHandover
  rcases lwpThreadqueueDequeue k w with ⟨k', _ | t⟩
  · exact .inr ⟨rfl, rfl⟩
  · exact .inl ⟨t, rfl, by simp only [hcounts, if_true]⟩

/-! ## The book -/

/-- How many mutexes a thread holds. -/
def owned [Fintype W] (holders : W → Option T) (t : T) : Nat := tally (fun w => holders w = some t)

def MutexState.holders (s : MutexState T W) (w : W) : Option T := (s.mutex w).holder

/-- What the book of a thread that holds `n` mutexes says. -/
structure BookOk (n : Nat) (b : Fin 256 × Fin 256 × BitVec 32) : Prop where
  count : b.2.2.toNat = n
  boosted : b.1 ≤ b.2.1
  own : b.2.2 = 0 → b.1 = b.2.1

/-- **What every run keeps.** -/
structure BookInv [Fintype W] (s : MutexState T W) : Prop where
  attrs : ∀ w, ∃ r, (s.mutex w).attrs = mutexAttr r
  free : ∀ w, (s.mutex w).lock = .unlocked → s.holders w = none
  passing : ∀ w, s.phase = .unlocking w → s.holders w = none ∧ (s.mutex w).lock = .locked
  book : ∀ t, BookOk (owned s.holders t) (s.kernel.books t)

section Owned
variable [Fintype W] {holders : W → Option T} {w : W}

theorem owned_give (hw : holders w = none) (t u : T) :
    owned (Function.update holders w (some t)) u = owned holders u + if u = t then 1 else 0 := by
  by_cases hu : u = t
  · subst hu
    rw [if_pos rfl]
    refine tally_insert (a := w) (by rw [hw]; simp) (by simp) fun w' hw' => ?_
    rw [Function.update_of_ne hw']
  · rw [if_neg hu]
    refine tally_congr fun w' => ?_
    by_cases hw' : w' = w
    · subst hw'; simp [hw, Ne.symm hu]
    · rw [Function.update_of_ne hw']

theorem owned_take {t : T} (hw : holders w = some t) (u : T) :
    owned holders u = owned (Function.update holders w none) u + if u = t then 1 else 0 := by
  have he : Function.update (Function.update holders w none) w (some t) = holders := by
    rw [Function.update_idem, ← hw, Function.update_eq_self]
  rw [← owned_give (Function.update_self w none holders) t u, he]

theorem owned_pos {t : T} (hw : holders w = some t) : 0 < owned holders t := tally_pos (a := w) hw

theorem owned_le (t : T) : owned holders t ≤ Fintype.card W := tally_le

end Owned

section Steps
variable [Fintype W] {s s' : MutexState T W}

variable {m : LwpMutex T} {n : Nat}

theorem holders_setMutex {w : W} (h : s'.mutex = s.setMutex w m) : s'.holders = Function.update s.holders w m.holder := by
  funext w'
  unfold MutexState.holders
  rw [h, MutexState.setMutex]
  by_cases hw : w' = w
  · subst hw; simp
  · simp [hw]

theorem BookInv.replace (h : BookInv s) {w : W} (hm : s'.mutex = s.setMutex w m) (ha : m.attrs = (s.mutex w).attrs)
    (hfree : m.lock = .unlocked → m.holder = none) (hpass : ∀ w', s'.phase = .unlocking w' → w' = w ∧ m.holder = none ∧ m.lock = .locked)
    (hbook : ∀ t, BookOk (owned s'.holders t) (s'.kernel.books t)) : BookInv s' := by
  have hself : s'.mutex w = m := by rw [hm]; exact Function.update_self ..
  have hother : ∀ w', w' ≠ w → s'.mutex w' = s.mutex w' := fun w' hw => by rw [hm]; exact Function.update_of_ne hw ..
  refine ⟨fun w' => ?_, fun w' hl => ?_, fun w' hp => ?_, hbook⟩
  · by_cases hw : w' = w
    · subst hw; rw [hself, ha]; exact h.attrs w'
    · rw [hother w' hw]; exact h.attrs w'
  · by_cases hw : w' = w
    · subst hw
      rw [hself] at hl
      rw [MutexState.holders, hself]
      exact hfree hl
    · rw [hother w' hw] at hl
      rw [MutexState.holders, hother w' hw]
      exact h.free w' hl
  · obtain ⟨rfl, h1, h2⟩ := hpass w' hp
    rw [MutexState.holders, hself]
    exact ⟨h1, h2⟩

theorem BookInv.same (h : BookInv s) (hm : s'.mutex = s.mutex) (hp : ∀ w, s'.phase = .unlocking w → s.phase = .unlocking w)
    (hbook : ∀ t, BookOk (owned s.holders t) (s'.kernel.books t)) : BookInv s' := by
  have hh : s'.holders = s.holders := by
    funext w
    rw [MutexState.holders, hm]
    rfl
  exact ⟨fun w => by rw [hm]; exact h.attrs w, fun w hl => by rw [hh]; exact h.free w (hm ▸ hl),
    fun w hw => by rw [hh, hm]; exact h.passing w (hp w hw), fun t => by rw [hh]; exact hbook t⟩

theorem addRes_books (k : Kernel T W) (t u : T) (d : BitVec 32) : (k.addRes t d).books u =
    if u = t then ((k.books t).1, (k.books t).2.1, (k.books t).2.2 + d) else k.books u := by
  split
  · rename_i hu
    subst hu
    unfold Kernel.books
    rw [Kernel.addRes, setThr_thr_self]
    rfl
  · rename_i hu
    exact books_ne k t hu

theorem BookOk.succ {b : Fin 256 × Fin 256 × BitVec 32} (h : BookOk n b) (hn : n + 1 < 2 ^ 32) :
    BookOk (n + 1) (b.1, b.2.1, b.2.2 + 1) := by
  obtain ⟨h1, h2, h3⟩ := h
  refine ⟨?_, h2, fun h0 => ?_⟩
  · simp only [BitVec.toNat_add, h1]
    exact Nat.mod_eq_of_lt hn
  · simp only at h0
    bv_omega

/-- **One mutex less**, and the thread's own priority back after the last. -/
theorem dropRes_book {k : Kernel T W} {t : T} (h : BookOk (n + 1) (k.books t)) :
    BookOk n ((k.dropRes t).books t) ∧ ∀ u, u ≠ t → (k.dropRes t).books u = k.books u := by
  obtain ⟨h1, h2, h3⟩ := h
  have hc : ((k.thr t).resCnt + (-1)).toNat = n := by
    have h1' : (k.thr t).resCnt.toNat = n + 1 := h1
    bv_omega
  have hthr : (k.addRes t (-1)).thr t = { k.thr t with resCnt := (k.thr t).resCnt + (-1) } := by
    rw [Kernel.addRes, setThr_thr_self]
  unfold Kernel.dropRes
  dsimp only
  rw [hthr]
  dsimp only
  split
  · rename_i h0
    refine ⟨?_, fun u hu => ?_⟩
    · rw [lwpThreadChangepriority_books, if_pos rfl, hthr]
      exact ⟨hc, le_refl _, fun _ => rfl⟩
    · rw [lwpThreadChangepriority_books, if_neg hu, addRes_books, if_neg hu]
  · rename_i h0
    refine ⟨?_, fun u hu => by rw [addRes_books, if_neg hu]⟩
    rw [addRes_books, if_pos rfl]
    refine ⟨hc, h2, fun hz => ?_⟩
    by_contra hne
    exact h0 ⟨hz, Ne.symm hne⟩

variable (hcard : Fintype.card W ≤ lwpMaxMutexes)
include hcard

theorem owned_lt (holders : W → Option T) (t : T) : owned holders t < 2 ^ 32 := by
  have h : owned holders t ≤ Fintype.card W := owned_le t
  unfold lwpMaxMutexes at hcard
  omega

theorem BookInv.resCnt_ne (h : BookInv s) {w : W} {t : T} (hw : s.holders w = some t) : (s.kernel.thr t).resCnt ≠ 0 := by
  intro h0
  have hc := (h.book t).count
  have hp := owned_pos hw
  rw [← hc] at hp
  simp [Kernel.books, Lwp.book, h0] at hp

theorem BookInv.lock (h : BookInv s) (t : T) (w : W) (call : MutexCall) : BookInv (mutexNext s (.lock t w call)) := by
  obtain ⟨r, ha⟩ := h.attrs w
  have hseize := lwpMutexSeize_cases { s.kernel with executing := t } ha w call.waitStatus call.timeout
  cases hres : lwpMutexSeize { s.kernel with executing := t } (s.mutex w) w call.waitStatus call.timeout with
  | mk k' p =>
    obtain ⟨m', e⟩ := p
    rw [hres] at hseize
    simp only [mutexNext, hres]
    cases hseize with
    | taken hl =>
      refine h.replace rfl rfl (fun hl' => by cases hl') (fun w' hp => by cases hp) fun u => ?_
      rw [holders_setMutex rfl]
      simp only
      rw [owned_give (h.free w hl), addRes_books]
      have hb := h.book u
      by_cases hu : u = t
      · subst hu
        rw [if_pos rfl, if_pos rfl, setRetCode_books]
        refine hb.succ ?_
        have hlt := owned_lt hcard (Function.update s.holders w (some u)) u
        rwa [owned_give (h.free w hl), if_pos rfl] at hlt
      · rw [if_neg hu, if_neg hu, setRetCode_books]
        exact hb
    | answered hl status nestCnt =>
      refine h.replace rfl rfl (h.free w) (fun w' hp => by cases hp) fun u => ?_
      rw [holders_setMutex rfl, setRetCode_books]
      simp only
      rw [show (s.mutex w).holder = s.holders w from rfl, Function.update_eq_self]
      exact h.book u
    | waits hl hh =>
      refine h.replace rfl rfl (h.free w) (fun w' hp => by cases hp) fun u => ?_
      rw [holders_setMutex rfl, books_setThr _ _ rfl]
      rw [show (s.mutex w).holder = s.holders w from rfl, Function.update_eq_self, lwpThreadqueueCsenter, setTq_books,
        setRetCode_books]
      exact h.book u

theorem BookInv.inherit (h : BookInv s) {e : Enq T W} (hph : s.phase = .inheriting e) : BookInv (mutexNext s .inherit) := by
  obtain ⟨r, ha⟩ := h.attrs e.queue
  have hmode : (s.mutex e.queue).attrs.mode = .inheritprio := by rw [ha]; rfl
  have hhold : Function.update s.holders e.queue (s.mutex e.queue).holder = s.holders := Function.update_eq_self ..
  simp only [mutexNext, hph]
  refine h.replace rfl rfl (h.free e.queue) (fun w' hp => by cases hp) fun u => ?_
  rw [holders_setMutex rfl]
  show BookOk (owned (Function.update s.holders e.queue (s.mutex e.queue).holder) u) _
  rw [hhold]
  simp only [lwpMutexInherit, hmode]
  cases hh : (s.mutex e.queue).holder with
  | none => exact h.book u
  | some t =>
    dsimp only
    split
    · rename_i hgt
      rw [lwpThreadChangepriority_books]
      split
      · -- the boost is below what the holder had
        rename_i hu
        subst hu
        obtain ⟨h1, h2, h3⟩ := h.book u
        exact ⟨h1, le_trans (le_of_lt hgt) h2, fun h0 => absurd h0 (h.resCnt_ne hcard (w := e.queue) hh)⟩
      · exact h.book u
    · exact h.book u

theorem BookInv.unlock (h : BookInv s) (t : T) (w : W) : BookInv (mutexNext s (.unlock t w)) := by
  obtain ⟨r, ha⟩ := h.attrs w
  have hrel := lwpMutexRelease_cases { s.kernel with executing := t } ha
  cases hres : lwpMutexRelease { s.kernel with executing := t } (s.mutex w) with
  | mk k' p =>
    obtain ⟨m', o⟩ := p
    rw [hres] at hrel
    simp only [mutexNext, hres]
    cases hrel with
    | kept nestCnt status =>
      refine h.replace rfl rfl (h.free w) (fun w' hp => by cases hp) fun u => ?_
      rw [holders_setMutex rfl]
      simp only
      rw [show (s.mutex w).holder = s.holders w from rfl, Function.update_eq_self]
      exact h.book u
    | given hh nestCnt =>
      have hl : (s.mutex w).lock = .locked := by
        cases hl : (s.mutex w).lock with
        | locked => rfl
        | unlocked => rw [show (s.mutex w).holder = none from h.free w hl] at hh; cases hh
      refine h.replace rfl rfl (fun _ => rfl) (fun w' hp => by cases hp; exact ⟨rfl, rfl, hl⟩) fun u => ?_
      rw [holders_setMutex rfl]
      have hown := @owned_take _ _ _ _ _ s.holders w t hh
      have hb := h.book t
      rw [hown t, if_pos rfl] at hb
      obtain ⟨hd, hd'⟩ := dropRes_book (k := { s.kernel with executing := t }) hb
      by_cases hu : u = t
      · subst hu; exact hd
      · have hb' := h.book u
        rw [hown u, if_neg hu] at hb'
        show BookOk _ ((Kernel.dropRes { s.kernel with executing := t } t).books u)
        rw [hd' u hu]
        exact hb'

theorem BookInv.handover (h : BookInv s) {w : W} (hph : s.phase = .unlocking w) : BookInv (mutexNext s .handover) := by
  obtain ⟨r, ha⟩ := h.attrs w
  obtain ⟨hnone, hl⟩ := h.passing w hph
  simp only [mutexNext, hph]
  rcases lwpMutexHandover_cases s.kernel ha w with ⟨t, hd, he⟩ | ⟨hd, he⟩
  · rw [he]
    refine h.replace rfl rfl (fun hl' => (by cases hl.symm.trans hl')) (fun w' hp => by cases hp) fun u => ?_
    rw [holders_setMutex rfl]
    simp only
    rw [owned_give hnone, addRes_books, lwpThreadqueueDequeue_books]
    by_cases hu : u = t
    · subst hu
      rw [if_pos rfl, if_pos rfl]
      refine (h.book u).succ ?_
      have hlt := owned_lt hcard (Function.update s.holders w (some u)) u
      rwa [owned_give hnone, if_pos rfl] at hlt
    · rw [if_neg hu, if_neg hu]
      exact h.book u
  · rw [he]
    refine h.replace rfl rfl (fun _ => hnone) (fun w' hp => by cases hp) fun u => ?_
    rw [holders_setMutex rfl]
    simp only
    rw [show (s.mutex w).holder = s.holders w from rfl, Function.update_eq_self, lwpThreadqueueDequeue_books]
    exact h.book u

omit hcard in
theorem BookInv.setPriority (h : BookInv s) (caller t : T) (prio : Fin 256) : BookInv (mutexPrioNext s (.setPriority caller t prio)) := by
  refine h.same rfl (fun _ hp => hp) fun u => ?_
  obtain ⟨h1, h2, h3⟩ := h.book t
  simp only [mutexPrioNext, lwpSetThreadPriority]
  set real := lwpPriotocore (if prio < prioLowest then prioLowest else prio) with hreal
  set k : Kernel T W := ({ s.kernel with executing := caller } : Kernel T W).setThr t ({ · with realPrio := real }) with hk
  have hself : k.thr t = { s.kernel.thr t with realPrio := real } := by rw [hk, setThr_thr_self]
  rw [hself]
  dsimp only
  split
  · rw [lwpThreadChangepriority_books, hself]
    split
    · rename_i hu
      subst hu
      exact ⟨h1, le_refl _, fun _ => rfl⟩
    · rename_i hu
      rw [hk, books_ne _ _ hu]
      exact h.book u
  · rename_i hno
    simp only [not_or, not_lt] at hno
    by_cases hu : u = t
    · subst hu
      show BookOk _ (k.thr u).book
      rw [hself]
      exact ⟨h1, hno.2, fun h0 => absurd h0 hno.1⟩
    · rw [hk, books_ne _ _ hu]
      exact h.book u

theorem mutexPrioNext_book (h : BookInv s) {e : MutexPrioEvent T W} (hg : mutexPrioGuard s e) : BookInv (mutexPrioNext s e) := by
  cases e with
  | setPriority caller t prio => exact h.setPriority caller t prio
  | mutex e =>
    cases e with
    | lock t w call => exact h.lock hcard t w call
    | inherit => obtain ⟨e, he⟩ := hg; exact h.inherit hcard he
    | enqueue =>
      obtain ⟨e, hph⟩ := hg
      obtain ⟨r, ha⟩ := h.attrs e.queue
      show BookInv (mutexNext s .enqueue)
      rw [mutexNext_enqueue hph ha]
      refine h.same rfl (fun w hp => ?_) fun u => ?_
      · dsimp only at hp
        cases ho : (enqNext s.kernel e).2 with
        | none => rw [ho] at hp; cases hp
        | some e' => rw [ho] at hp; cases hp
      · show BookOk _ ((enqNext s.kernel e).1.books u)
        rw [enqNext_books]
        exact h.book u
    | ret t =>
      simp only [mutexPrioNext, mutexNext]
      split
      · exact h.same rfl (fun _ hp => hp) h.book
      · exact h
    | unlock t w => exact h.unlock hcard t w
    | handover => obtain ⟨w, hw⟩ := hg; exact h.handover hcard hw
    | expire t =>
      refine h.same rfl (fun _ hp => hp) fun u => ?_
      simp only [mutexPrioNext, mutexNext, lwpWdTickle_books]
      exact h.book u

end Steps

/-- Threads as they are created: no mutex, and their own priority. -/
def FreshThreads (k : Kernel T W) : Prop := ∀ t, (k.thr t).resCnt = 0 ∧ (k.thr t).curPrio = (k.thr t).realPrio

theorem threadqueueInit_books (k : Kernel T W) (w : W) (mode : ThreadqMode) (state timeoutStatus : BitVec 32) :
    (lwpThreadqueueInit k w mode state timeoutStatus).books = k.books := by
  unfold lwpThreadqueueInit
  cases mode <;> rfl

theorem mutexStart_books (ws : List W) (useRecursive : W → Bool) : ∀ k : Kernel T W,
    (mutexStart k ws useRecursive).kernel.books = k.books := by
  unfold mutexStart
  induction ws with
  | nil => exact fun _ => rfl
  | cons w ws ih =>
    intro k
    refine (ih _).trans ?_
    exact threadqueueInit_books k w (mutexAttr (useRecursive w)).queueMode stWaitingForMutex mutexTimeout

theorem BookInv.start [Fintype W] {k : Kernel T W} (hk : FreshThreads k) (ws : List W) (useRecursive : W → Bool) :
    BookInv (mutexStart k ws useRecursive) := by
  refine ⟨fun w => ⟨_, rfl⟩, fun _ _ => rfl, fun w hp => (by cases hp), fun t => ?_⟩
  obtain ⟨h0, he⟩ := hk t
  rw [mutexStart_books]
  have hown : owned (mutexStart k ws useRecursive).holders t = 0 := tally_eq_zero fun w hw => by cases hw
  rw [hown]
  refine ⟨?_, le_of_eq he, fun _ => he⟩
  show (k.thr t).resCnt.toNat = 0
  rw [h0]
  rfl

/-- **The book of every thread is right.**  In every run of lock, timed lock, try lock and unlock calls on the mutexes of the
table, of `LWP_SetThreadPriority` calls and of expiring timers, in every state: `res_cnt` of a thread is the number of mutexes
whose holder it is; its `cur_prio` is numerically not above its `real_prio`; and when it holds no mutex, which is when `res_cnt`
is 0, the two are equal. -/
theorem mutex_book [Fintype W] (hcard : Fintype.card W ≤ lwpMaxMutexes) (k : Kernel T W) (hk : FreshThreads k) (ws : List W)
    (useRecursive : W → Bool) (es : List (MutexPrioEvent T W)) (s : MutexState T W)
    (hes : mutexPrioSystem.Legal (mutexStart k ws useRecursive) es)
    (hs : s = mutexPrioSystem.run (mutexStart k ws useRecursive) es) (t : T) :
    (s.kernel.thr t).resCnt.toNat = tally (fun w => (s.mutex w).holder = some t) ∧
    (s.kernel.thr t).curPrio ≤ (s.kernel.thr t).realPrio ∧
    ((s.kernel.thr t).resCnt = 0 → (s.kernel.thr t).curPrio = (s.kernel.thr t).realPrio) ∧
    ((∀ w, (s.mutex w).holder ≠ some t) → (s.kernel.thr t).curPrio = (s.kernel.thr t).realPrio) := by
  have h : BookInv s := by
    rw [hs]
    exact System.Legal.invariant (I := BookInv) (fun s e h hg => mutexPrioNext_book hcard h hg)
      (BookInv.start hk ws useRecursive) hes
  obtain ⟨h1, h2, h3⟩ := h.book t
  refine ⟨h1, h2, h3, fun hno => h3 (BitVec.eq_of_toNat_eq ?_)⟩
  rw [h1]
  exact tally_eq_zero hno

/-- A thread with one mutex is boosted by a more urgent one, is given a priority meanwhile, and unlocks. -/
def bookSample : List (MutexPrioEvent (Fin 3) Bool) :=
  [.mutex (.lock 0 true .lock), .mutex (.ret 0), .setPriority 2 0 20, .mutex (.lock 1 true (.timedLock false)), .mutex .inherit,
    .mutex .enqueue, .mutex .enqueue, .mutex .enqueue, .setPriority 2 0 200, .mutex (.expire 1), .mutex (.ret 1),
    .setPriority 2 0 30, .mutex (.unlock 0 true), .mutex .handover]

/-- The kernel of three started threads of three priorities. -/
def bookSampleKernel : Kernel (Fin 3) Bool :=
  (schedSystem Bool (0 : Fin 3)).run (lwpSysinit (threadsInit (zeroKernel (Fin 3) Bool 0) (fun t => if t = 1 then 100 else 190)
    (fun _ => true)) 0) [.ready 1, .ready 2]

theorem mutex_book_sample : mutexPrioSystem.Legal (mutexStart bookSampleKernel [true, false] id) bookSample ∧
    ((mutexPrioSystem.run (mutexStart bookSampleKernel [true, false] id) bookSample).kernel.thr 0).curPrio =
      ((mutexPrioSystem.run (mutexStart bookSampleKernel [true, false] id) bookSample).kernel.thr 0).realPrio := by
  have hl : mutexPrioSystem.Legal (mutexStart bookSampleKernel [true, false] id) bookSample := by decide +kernel
  obtain ⟨-, -, -, hfree⟩ := mutex_book (by decide) bookSampleKernel (by unfold FreshThreads; decide +kernel) [true, false] id
    bookSample _ hl rfl 0
  exact ⟨hl, hfree (by decide +kernel)⟩

end Libogc
