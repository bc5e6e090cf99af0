import Libogc.Lwp.MutexOrder
/-!
# MutexInherit — the holder is as urgent as its waiters

A thread gives its priority to the holder of the mutex just before it gets behind the mutex, the next holder is one of the most
urgent of those that wait, and a holder keeps a boost until it gives its last mutex away.  `InheritInv` puts this on top of the
order of the wait queues (`HandInv`) and the books of the threads (`BookInv`).
-/
namespace Libogc

open Links Runs

set_option linter.unusedSectionVars false

variable {T W : Type} [DecidableEq T] [DecidableEq W] [Fintype W]

/-- **What every run keeps.** -/
structure InheritInv (s : MutexState T W) (Qs : QId T W → Option (List T)) : Prop where
  hand : HandInv s Qs
  book : BookInv s
  le : ∀ w holder t, s.holders w = some holder → Behind s Qs w t → s.kernel.prioOf holder ≤ s.kernel.prioOf t

variable {s s' : MutexState T W} {Qs Qs' : QId T W → Option (List T)}

theorem prioOf_of_books {k k' : Kernel T W} {t : T} (h : k'.books t = k.books t) : k'.prioOf t = k.prioOf t :=
  congrArg (·.1) h

theorem Behind.waits {w : W} {t : T} (hb : Behind s Qs w t) (hno : ∀ e, s.phase ≠ .entering e) : Waits Qs w t := by
  rcases hb with hb | ⟨e, he, -⟩
  · exact hb
  · exact absurd he (hno e)

theorem Behind.ne_of_ready {w : W} {t u : T} (hh : HandInv s Qs) (hb : Behind s Qs w t) (hno : ∀ e, s.phase ≠ .entering e)
    (hr : s.kernel.Ready u) : t ≠ u := by
  rintro rfl
  exact hh.wait.tq.not_ready (hb.waits hno) hr

/-- **A step by which nobody gets behind a mutex.**  The priorities of those behind one stay, and each holder held its mutex
before and is not less urgent now, or is as urgent as everyone behind. -/
theorem InheritInv.keep (h : InheritInv s Qs) (hhand : HandInv s' Qs' ∧ NoneNew s s' Qs Qs') (hbook : BookInv s')
    (hph : ∀ e, s.phase ≠ .inheriting e)
    (hprio : ∀ w t, Behind s Qs w t → s'.kernel.prioOf t = s.kernel.prioOf t)
    (hholder : ∀ w u, s'.holders w = some u →
      (s.holders w = some u ∧ s'.kernel.prioOf u ≤ s.kernel.prioOf u) ∨
        ∀ t, Behind s Qs w t → s'.kernel.prioOf u ≤ s.kernel.prioOf t) : InheritInv s' Qs' := by
  refine ⟨hhand.1, hbook, fun w u t hu hb => ?_⟩
  have hb₀ : Behind s Qs w t := (hhand.2 w t hb).resolve_right fun ⟨e, he, _⟩ => hph e he
  rw [hprio w t hb₀]
  rcases hholder w u hu with ⟨hu₀, hle⟩ | hle
  · exact hle.trans (h.le w u t hu₀ hb₀)
  · exact hle t hb₀

/-- A step by which nobody gets behind a mutex or becomes a holder, and that changes no priority. -/
theorem InheritInv.still (h : InheritInv s Qs) (hhand : HandInv s' Qs' ∧ NoneNew s s' Qs Qs') (hbook : BookInv s')
    (hph : ∀ e, s.phase ≠ .inheriting e) (hbooks : s'.kernel.books = s.kernel.books)
    (hholder : ∀ w u, s'.holders w = some u → s.holders w = some u) : InheritInv s' Qs' := by
  have hprio : ∀ t, s'.kernel.prioOf t = s.kernel.prioOf t := fun t => prioOf_of_books (congrFun hbooks t)
  exact h.keep hhand hbook hph (fun _ t _ => hprio t) fun w u hu => .inl ⟨hholder w u hu, le_of_eq (hprio u)⟩

/-! ## One step -/

section Steps
variable (hcard : Fintype.card W ≤ lwpMaxMutexes)
include hcard

theorem InheritInv.lock (h : InheritInv s Qs) (hph : s.phase = .idle) {t : T} (hr : s.kernel.Ready t) (w : W) (call : MutexCall) :
    InheritInv (mutexNext s (.lock t w call)) Qs := by
  have hhand := h.hand.lock hph hr w call
  have hbook := h.book.lock hcard t w call
  have hno : ∀ e, s.phase ≠ .inheriting e := fun e he => by rw [hph] at he; cases he
  have hbehind : ∀ w' u, Behind s Qs w' u → (s.mutex w').lock = .locked := fun w' u hb =>
    h.hand.locked w' u (.inl (hb.waits fun e he => by rw [hph] at he; cases he))
  obtain ⟨r, ha⟩ := h.book.attrs w
  have hseize := lwpMutexSeize_cases { s.kernel with executing := t } ha w call.waitStatus call.timeout
  cases hres : lwpMutexSeize { s.kernel with executing := t } (s.mutex w) w call.waitStatus call.timeout with
  | mk k' p =>
    obtain ⟨m', e⟩ := p
    rw [hres] at hseize
    simp only [mutexNext, hres] at hhand hbook ⊢
    cases hseize with
    | taken hl =>
      have hbooks : ∀ u, (((Kernel.setRetCode { s.kernel with executing := t } t mutexSuccessful).addRes t 1).prioOf u) =
          s.kernel.prioOf u := fun u => by
        show (Kernel.books _ u).1 = (s.kernel.books u).1
        rw [addRes_books, setRetCode_books]
        split
        · rename_i hu; subst hu; rfl
        · rfl
      refine h.keep hhand hbook hno (fun _ u _ => hbooks u) fun w' u hu => ?_
      rw [holders_setMutex rfl] at hu
      by_cases hw : w' = w
      · -- the mutex was free, so nobody is behind it
        subst hw
        refine .inr fun v hv => ?_
        cases hl.symm.trans (hbehind w' v hv)
      · rw [Function.update_of_ne hw] at hu
        exact .inl ⟨hu, le_of_eq (hbooks u)⟩
    | answered hl status nestCnt =>
      refine h.still hhand hbook hno (setRetCode_books _ _ _) fun w' u hu => ?_
      rw [holders_setMutex rfl] at hu
      rwa [show ({ s.mutex w with nestCnt := nestCnt } : LwpMutex T).holder = s.holders w from rfl, Function.update_eq_self] at hu
    | waits hl hh =>
      refine h.still hhand hbook hno ?_ fun w' u hu => ?_
      · funext u
        rw [books_setThr _ _ rfl, lwpThreadqueueCsenter, setTq_books, setRetCode_books]
        rfl
      · rw [holders_setMutex rfl] at hu
        rwa [show (s.mutex w).holder = s.holders w from rfl, Function.update_eq_self] at hu

/-- **The holder is given the priority of the thread that is about to block.** -/
theorem InheritInv.inherit (h : InheritInv s Qs) {e : Enq T W} (hph : s.phase = .inheriting e)
    (hkeep : keepsBlocked s (.mutex .inherit)) : ∃ Qs', InheritInv (mutexNext s .inherit) Qs' := by
  obtain ⟨Qs', hhand, hnew⟩ := h.hand.inherit hph hkeep
  obtain ⟨r, ha⟩ := h.book.attrs e.queue
  have hmode : (s.mutex e.queue).attrs.mode = .inheritprio := by rw [ha]; rfl
  have hexec : s.kernel.executing = e.thread := (h.hand.wait.tq.phase e (by rw [hph]; rfl)).exec
  -- the holder becomes as urgent as the thread, and no other thread changes
  obtain ⟨hother, hdown, hboost⟩ : (∀ u, s.holders e.queue ≠ some u →
      (mutexNext s .inherit).kernel.prioOf u = s.kernel.prioOf u) ∧
      (∀ u, (mutexNext s .inherit).kernel.prioOf u ≤ s.kernel.prioOf u ∧
        ((mutexNext s .inherit).kernel.prioOf u ≠ s.kernel.prioOf u →
          ¬ s.Blocked u ∧ s.kernel.prioOf e.thread < s.kernel.prioOf u)) ∧
      ∀ u, s.holders e.queue = some u → (mutexNext s .inherit).kernel.prioOf u ≤ s.kernel.prioOf e.thread := by
    simp only [mutexNext, hph, lwpMutexInherit, hmode, hexec, MutexState.holders]
    cases hh : (s.mutex e.queue).holder with
    | none => exact ⟨fun _ _ => rfl, fun u => ⟨le_refl _, fun hne => absurd rfl hne⟩, fun u hu => by cases hu⟩
    | some holder =>
      dsimp only
      split
      · rename_i hgt
        have hbooks : ∀ u, (lwpThreadChangepriority s.kernel holder (s.kernel.thr e.thread).curPrio false).prioOf u =
            if u = holder then s.kernel.prioOf e.thread else s.kernel.prioOf u := fun u => by
          refine (congrArg (·.1) (lwpThreadChangepriority_books s.kernel holder (s.kernel.thr e.thread).curPrio false u)).trans ?_
          split <;> rfl
        simp only [hbooks]
        refine ⟨fun u hu => if_neg fun he => hu (by rw [he]), fun u => ?_, fun u hu => by cases hu; rw [if_pos rfl]⟩
        split
        · rename_i he
          subst he
          refine ⟨le_of_lt hgt, fun _ => ⟨?_, hgt⟩⟩
          exact (hkeep e (by rw [hph]; rfl) u hh).resolve_right (not_le.2 hgt)
        · exact ⟨le_refl _, fun hne => absurd rfl hne⟩
      · rename_i hle
        exact ⟨fun _ _ => rfl, fun u => ⟨le_refl _, fun hne => absurd rfl hne⟩, fun u hu => by cases hu; exact not_lt.1 hle⟩
  refine ⟨Qs', hhand, h.book.inherit hcard hph, fun w u t hu hb => ?_⟩
  have hu₀ : s.holders w = some u := by
    simp only [mutexNext, hph] at hu
    rw [holders_setMutex rfl] at hu
    rwa [show (lwpMutexInherit s.kernel (s.mutex e.queue)).2.holder = s.holders e.queue from rfl, Function.update_eq_self] at hu
  rcases hnew w t hb with hb₀ | ⟨e', he', rfl, rfl⟩
  · have ht : (mutexNext s .inherit).kernel.prioOf t = s.kernel.prioOf t := by
      by_contra hne
      have hwt : Waits Qs w t := hb₀.waits fun e' he' => by rw [hph] at he'; cases he'
      exact ((hdown t).2 hne).1 ((h.hand.blocked_iff w t).2 hwt).2
    rw [ht]
    exact (hdown u).1.trans (h.le w u t hu₀ hb₀)
  · cases hph.symm.trans he'
    have ht : (mutexNext s .inherit).kernel.prioOf e.thread = s.kernel.prioOf e.thread := by
      by_contra hne
      exact absurd ((hdown e.thread).2 hne).2 (lt_irrefl _)
    rw [ht]
    exact hboost u hu₀

theorem InheritInv.unlock (h : InheritInv s Qs) (hph : s.phase = .idle) {t : T} (hr : s.kernel.Ready t) (w : W) :
    ∃ Qs', InheritInv (mutexNext s (.unlock t w)) Qs' := by
  obtain ⟨Qs', hhand⟩ := h.hand.unlock hph hr w
  have hbook := h.book.unlock hcard t w
  have hno : ∀ e, s.phase ≠ .inheriting e := fun e he => by rw [hph] at he; cases he
  obtain ⟨r, ha⟩ := h.book.attrs w
  have hrel := lwpMutexRelease_cases { s.kernel with executing := t } ha
  refine ⟨Qs', ?_⟩
  cases hres : lwpMutexRelease { s.kernel with executing := t } (s.mutex w) with
  | mk k' p =>
    obtain ⟨m', o⟩ := p
    rw [hres] at hrel
    simp only [mutexNext, hres] at hhand hbook ⊢
    cases hrel with
    | kept nestCnt status =>
      refine h.still hhand hbook hno rfl fun w' u hu => ?_
      rw [holders_setMutex rfl] at hu
      rwa [show ({ s.mutex w with nestCnt := nestCnt } : LwpMutex T).holder = s.holders w from rfl, Function.update_eq_self] at hu
    | given hh nestCnt =>
      have hother : ∀ u, u ≠ t → (Kernel.dropRes { s.kernel with executing := t } t).prioOf u = s.kernel.prioOf u := fun u hu => by
        have hown := @owned_take _ _ _ _ _ s.holders w t hh
        have hb := h.book.book t
        rw [hown t, if_pos rfl] at hb
        exact prioOf_of_books ((dropRes_book (k := { s.kernel with executing := t }) hb).2 u hu)
      -- a thread that holds another mutex keeps its boost
      have hself : (Kernel.dropRes { s.kernel with executing := t } t).prioOf t = s.kernel.prioOf t ∨
          ((Kernel.dropRes { s.kernel with executing := t } t).thr t).resCnt = 0 := by
        have hthr : (Kernel.addRes { s.kernel with executing := t } t (-1)).thr t =
            { s.kernel.thr t with resCnt := (s.kernel.thr t).resCnt + (-1) } := by
          rw [Kernel.addRes, setThr_thr_self]
        unfold Kernel.dropRes
        dsimp only
        split
        · rename_i h0
          refine .inr ?_
          have hb := lwpThreadChangepriority_books (Kernel.addRes { s.kernel with executing := t } t (-1)) t
            ((Kernel.addRes { s.kernel with executing := t } t (-1)).thr t).realPrio true t
          rw [if_pos rfl] at hb
          exact (congrArg (·.2.2) hb).trans h0.1
        · refine .inl ?_
          rw [Kernel.prioOf, hthr]
          rfl
      refine h.keep hhand hbook hno (fun w' u hb => hother u ?_) fun w' u hu => .inl ?_
      · exact hb.ne_of_ready h.hand (fun e he => by rw [hph] at he; cases he) hr
      · have hu₀ : s.holders w' = some u := by
          rw [holders_setMutex rfl] at hu
          by_cases hw : w' = w
          · subst hw; rw [Function.update_self] at hu; cases hu
          · rwa [Function.update_of_ne hw] at hu
        refine ⟨hu₀, le_of_eq ?_⟩
        by_cases hut : u = t
        · subst hut
          exact hself.resolve_right (hbook.resCnt_ne hcard hu)
        · exact hother u hut

theorem InheritInv.handover (h : InheritInv s Qs) {w : W} (hph : s.phase = .unlocking w) :
    ∃ Qs', InheritInv (mutexNext s .handover) Qs' := by
  obtain ⟨Qs', hhand⟩ := h.hand.handover hph
  obtain ⟨hsome, -⟩ := h.hand.handover_order hph
  have hbook := h.book.handover hcard hph
  have hmutex : (mutexNext s .handover).mutex = s.setMutex w (lwpMutexHandover s.kernel (s.mutex w) w).2 := by
    simp only [mutexNext, hph]
  obtain ⟨r, ha⟩ := h.book.attrs w
  have hprio : ∀ u, (mutexNext s .handover).kernel.prioOf u = s.kernel.prioOf u := fun u => by
    have hk : (mutexNext s .handover).kernel = (lwpMutexHandover s.kernel (s.mutex w) w).1 := by simp only [mutexNext, hph]
    show (Kernel.books _ u).1 = (s.kernel.books u).1
    rw [hk]
    rcases lwpMutexHandover_cases s.kernel ha w with ⟨t, -, he⟩ | ⟨-, he⟩
    · rw [he, addRes_books, lwpThreadqueueDequeue_books]
      split
      · rename_i hu; subst hu; rfl
      · rfl
    · rw [he, lwpThreadqueueDequeue_books]
  refine ⟨Qs', h.keep hhand hbook (fun e he => by rw [hph] at he; cases he) (fun _ u _ => hprio u) fun w' u hu => ?_⟩
  rw [hprio u]
  by_cases hw : w' = w
  · subst hw
    refine .inr fun t hb => (hsome u hu).2 t (hb.waits fun e he => by rw [hph] at he; cases he)
  · rw [holders_setMutex hmutex, Function.update_of_ne hw] at hu
    exact .inl ⟨hu, le_refl _⟩

theorem InheritInv.setPriority (h : InheritInv s Qs) (hph : s.phase = .idle) {caller t : T} {prio : Fin 256}
    (hkeep : keepsBlocked s (.setPriority caller t prio)) : ∃ Qs', InheritInv (mutexPrioNext s (.setPriority caller t prio)) Qs' := by
  obtain ⟨Qs', hhand⟩ := h.hand.setPriority hph hkeep
  have hbook := h.book.setPriority caller t prio
  set k₁ : Kernel T W := ({ s.kernel with executing := caller } : Kernel T W).setThr t ({ · with realPrio := ownPrio prio })
    with hk₁
  have hself : k₁.thr t = { s.kernel.thr t with realPrio := ownPrio prio } := by rw [hk₁, setThr_thr_self]
  have hprio₁ : ∀ u, k₁.prioOf u = s.kernel.prioOf u := fun u => by
    by_cases hu : u = t
    · subst hu; rw [Kernel.prioOf, hself]; rfl
    · rw [Kernel.prioOf, hk₁, setThr_thr_ne _ _ _ hu]; rfl
  have hnext : (mutexPrioNext s (.setPriority caller t prio)).kernel =
      if (k₁.thr t).resCnt = 0 ∨ (k₁.thr t).curPrio > (k₁.thr t).realPrio then
        lwpThreadChangepriority k₁ t (k₁.thr t).realPrio true else k₁ := rfl
  rw [hself] at hnext
  -- only the thread changes, and only when the priority takes effect
  have hprio : ∀ u, (mutexPrioNext s (.setPriority caller t prio)).kernel.prioOf u = s.kernel.prioOf u ∨
      (u = t ∧ ((s.kernel.thr t).resCnt = 0 ∨ (s.kernel.thr t).curPrio > ownPrio prio) ∧
        (mutexPrioNext s (.setPriority caller t prio)).kernel.prioOf u = ownPrio prio) := fun u => by
    rw [hnext]
    split
    · rename_i hc
      have hb : (lwpThreadChangepriority k₁ t (ownPrio prio) true).prioOf u =
          if u = t then ownPrio prio else k₁.prioOf u := by
        refine (congrArg (·.1) (lwpThreadChangepriority_books k₁ t (ownPrio prio) true u)).trans ?_
        split <;> rfl
      by_cases hu : u = t
      · rw [if_pos hu] at hb
        exact .inr ⟨hu, hc, hb⟩
      · rw [if_neg hu] at hb
        exact .inl (hb.trans (hprio₁ u))
    · exact .inl (hprio₁ u)
  refine ⟨Qs', h.keep hhand hbook (fun e he => by rw [hph] at he; cases he) (fun w u hb => ?_) fun w u hu => .inl ⟨hu, ?_⟩⟩
  · rcases hprio u with he | ⟨rfl, hc, he⟩
    · exact he
    · have hblocked := ((h.hand.blocked_iff w u).2 (hb.waits fun e he => by rw [hph] at he; cases he)).2
      rcases hkeep with hk | hk | ⟨hk, hle⟩
      · exact absurd hblocked hk
      · exact he.trans hk.symm
      · exact absurd hc (not_or.2 ⟨hk, not_lt.2 hle⟩)
  · rcases hprio u with he | ⟨rfl, hc, he⟩
    · exact le_of_eq he
    · rw [he]
      exact le_of_lt (hc.resolve_left (h.book.resCnt_ne hcard hu))

theorem mutexPrioNext_inherit (h : InheritInv s Qs) {e : MutexPrioEvent T W} (hg : mutexPrioGuard s e) (hkeep : keepsBlocked s e) :
    ∃ Qs', InheritInv (mutexPrioNext s e) Qs' := by
  have hbook := mutexPrioNext_book hcard h.book hg
  cases e with
  | setPriority caller t prio => exact h.setPriority hcard hg.1 hkeep
  | mutex e =>
    cases e with
    | lock t w call => exact ⟨Qs, h.lock hcard hg.1 hg.2.1 w call⟩
    | inherit => obtain ⟨e, he⟩ := hg; exact h.inherit hcard he hkeep
    | enqueue =>
      obtain ⟨e, hph⟩ := hg
      obtain ⟨Qs', hhand⟩ := h.hand.enqueue hph
      obtain ⟨r, ha⟩ := h.book.attrs e.queue
      have hnext := mutexNext_enqueue hph ha
      refine ⟨Qs', h.still hhand hbook (fun e' he' => by rw [hph] at he'; cases he') ?_ fun w u hu => ?_⟩
      · show (mutexNext s .enqueue).kernel.books = _
        rw [hnext]
        exact enqNext_books _ _
      · rw [show mutexPrioNext s (.mutex .enqueue) = mutexNext s .enqueue from rfl, hnext] at hu
        exact hu
    | ret t =>
      refine ⟨Qs, h.still (h.hand.ret hg.1 hg.2.1) hbook (fun e he => by rw [hg.1] at he; cases he) ?_ fun w u hu => ?_⟩
      · simp only [mutexPrioNext, mutexNext]
        split <;> rfl
      · simp only [mutexPrioNext, mutexNext] at hu
        split at hu <;> exact hu
    | unlock t w => exact h.unlock hcard hg.1 hg.2.1 w
    | handover => obtain ⟨w, hw⟩ := hg; exact h.handover hcard hw
    | expire t =>
      obtain ⟨Qs', hhand, hnew⟩ := h.hand.expire hg
      -- a thread on its way in is on no queue yet
      have hb₀ : ∀ w v, Behind (mutexNext s (.expire t)) Qs' w v → Behind s Qs w v := fun w v hb => by
        rcases hnew w v hb with hb₀ | ⟨e, he, rfl, rfl⟩
        · exact hb₀
        · have hph' : (mutexNext s (.expire t)).phase = .inheriting e := he
          have hwv : Waits Qs' e.queue e.thread := hb.waits fun e' he' => by rw [hph'] at he'; cases he'
          exact absurd hwv ((hhand.wait.tq.phase e (by rw [hph']; rfl)).out e.queue)
      refine ⟨Qs', hhand, hbook, fun w u v hu hb => ?_⟩
      have hprio : ∀ x, (mutexNext s (.expire t)).kernel.prioOf x = s.kernel.prioOf x := fun x =>
        prioOf_of_books (congrFun (lwpWdTickle_books s.kernel t) x)
      show (mutexNext s (.expire t)).kernel.prioOf u ≤ (mutexNext s (.expire t)).kernel.prioOf v
      rw [hprio, hprio]
      exact h.le w u v hu (hb₀ w v hb)

end Steps

/-! ## Every run -/

theorem InheritInv.of_run (hcard : Fintype.card W ≤ lwpMaxMutexes) {k : Kernel T W} {idle : T} {ws : List W}
    (hk : SchedState idle k) (ht : ∀ t, (k.thr t).timer ≠ .active) (hst : SettledThreads k) (hf : FreshThreads k)
    (hws : ∀ w, w ∈ ws) {useRecursive : W → Bool} {es : List (MutexPrioEvent T W)}
    (hes : (mutexPrioSystem.restrict keepsBlocked).Legal (mutexStart k ws useRecursive) es)
    (hs : s = mutexPrioSystem.run (mutexStart k ws useRecursive) es) : ∃ Qs, InheritInv s Qs := by
  have hrun : s = (mutexPrioSystem.restrict keepsBlocked).run (mutexStart k ws useRecursive) es := hs
  rw [hrun]
  refine System.Legal.invariant (I := fun s => ∃ Qs, InheritInv s Qs) (fun s e ⟨Qs, h⟩ hg => ?_) ?_ hes
  · obtain ⟨Qs, h⟩ := HandInv.start hk ht hst hws useRecursive
    exact ⟨Qs, h, BookInv.start hf ws useRecursive, fun w u t hu _ => (by cases hu)⟩
  · exact mutexPrioNext_inherit hcard h hg.1 hg.2

/-- **The holder of a mutex is as urgent as everyone blocked on it.**  In every state of every run of lock, timed lock, try lock
and unlock calls on the mutexes of the table, of `LWP_SetThreadPriority` calls and of expiring timers in which no step changes
the `cur_prio` of a thread that is blocked on a mutex. -/
theorem mutex_inheritance (hcard : Fintype.card W ≤ lwpMaxMutexes) (k : Kernel T W) (idle : T) (ws : List W)
    (useRecursive : W → Bool) (es : List (MutexPrioEvent T W)) (s : MutexState T W) (hk : SchedState idle k)
    (ht : ∀ t, (k.thr t).timer ≠ .active) (hst : SettledThreads k) (hf : FreshThreads k) (hws : ∀ w, w ∈ ws)
    (hes : (mutexPrioSystem.restrict keepsBlocked).Legal (mutexStart k ws useRecursive) es)
    (hs : s = mutexPrioSystem.run (mutexStart k ws useRecursive) es) (w : W) (holder t : T)
    (hh : (s.mutex w).holder = some holder) (hc : s.calls t = some w) (hb : s.Blocked t) :
    (s.kernel.thr holder).curPrio ≤ (s.kernel.thr t).curPrio := by
  obtain ⟨Qs, h⟩ := InheritInv.of_run hcard hk ht hst hf hws hes hs
  exact h.le w holder t hh (.inl ((h.hand.blocked_iff w t).1 ⟨hc, hb⟩))

/-- 1 holds a mutex, 3 and 2 wait for it, and 1 was boosted. -/
def inheritSample : List (MutexPrioEvent (Fin 4) Bool) :=
  [.mutex (.lock 1 true .lock), .mutex (.ret 1)] ++ blocksOn 3 true ++ blocksOn 2 true ++
    [.mutex .enqueue, .setPriority 1 1 200]

theorem mutex_inheritance_sample :
    (mutexPrioSystem.restrict keepsBlocked).Legal (mutexStart orderSampleKernel [true, false] id) inheritSample ∧
      ((mutexPrioSystem.run (mutexStart orderSampleKernel [true, false] id) inheritSample).kernel.thr 1).curPrio ≤
        ((mutexPrioSystem.run (mutexStart orderSampleKernel [true, false] id) inheritSample).kernel.thr 3).curPrio := by
  have hl : (mutexPrioSystem.restrict keepsBlocked).Legal (mutexStart orderSampleKernel [true, false] id) inheritSample := by
    decide +kernel
  exact ⟨hl, mutex_inheritance (by decide) orderSampleKernel 0 [true, false] id inheritSample _ orderSampleKernel_sched
    (by decide +kernel) (by unfold SettledThreads; decide +kernel) (by unfold FreshThreads; decide +kernel) (by decide) hl rfl
    true 1 3 (by decide +kernel) (by decide +kernel) (by decide +kernel)⟩

/-- 1 holds one mutex and 3 another, 3 blocks on the one 1 holds, and 2 on the one 3 holds. -/
def chainSample : List (MutexPrioEvent (Fin 4) Bool) :=
  [.mutex (.lock 1 true .lock), .mutex (.ret 1), .mutex (.lock 3 false .lock), .mutex (.ret 3)] ++ blocksOn 3 true ++
    blocksOn 2 false

/-- 3 blocks on the mutex that 1 holds, and is made more urgent then. -/
def laterSample : List (MutexPrioEvent (Fin 4) Bool) :=
  [.mutex (.lock 1 true .lock), .mutex (.ret 1)] ++ blocksOn 3 true ++ [.setPriority 1 3 178]

/-- **The boost goes to the holder of the mutex, once.**  In a chain the thread 2 of priority 100 boosts the blocked thread 3, and
the thread 1 that 3 waits for keeps 110; and a thread that is made more urgent while it waits boosts nobody. -/
theorem mutex_inheritance_misses : (∃ s : MutexState (Fin 4) Bool,
    mutexPrioSystem.Legal (mutexStart orderSampleKernel [true, false] id) chainSample ∧
      s = mutexPrioSystem.run (mutexStart orderSampleKernel [true, false] id) chainSample ∧
      (s.mutex true).holder = some 1 ∧ s.calls 3 = some true ∧ s.Blocked 3 ∧
      (s.kernel.thr 1).curPrio = 110 ∧ (s.kernel.thr 3).curPrio = 100) ∧
    ∃ s : MutexState (Fin 4) Bool,
    mutexPrioSystem.Legal (mutexStart orderSampleKernel [true, false] id) laterSample ∧
      s = mutexPrioSystem.run (mutexStart orderSampleKernel [true, false] id) laterSample ∧
      (s.mutex true).holder = some 1 ∧ s.calls 3 = some true ∧ s.Blocked 3 ∧
      (s.kernel.thr 1).curPrio = 110 ∧ (s.kernel.thr 3).curPrio = 50 := by
  obtain ⟨s, hs⟩ : ∃ s, s = mutexPrioSystem.run (mutexStart orderSampleKernel [true, false] id) chainSample := ⟨_, rfl⟩
  obtain ⟨s', hs'⟩ : ∃ s, s = mutexPrioSystem.run (mutexStart orderSampleKernel [true, false] id) laterSample := ⟨_, rfl⟩
  refine ⟨⟨s, by decide +kernel, hs, ?_⟩, s', by decide +kernel, hs', ?_⟩
  · rw [hs]
    decide +kernel
  · rw [hs']
    decide +kernel

end Libogc
