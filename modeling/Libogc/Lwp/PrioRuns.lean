import Libogc.Lwp.Boot
import Libogc.Lwp.PrioQueue
/-!
# PrioRuns — every run of a priority queue

Threads enqueue themselves on one queue of mode PRIORITY, and are dequeued and extracted, in any order.  `waiting` remembers
in which order the blocked threads came; the theorem compares what a dequeue returns with it.
-/
namespace Libogc

open Links Runs

set_option linter.unusedSectionVars false

variable {T W : Type} [DecidableEq T] [DecidableEq W]

/-- A thread blocks on a queue, as every blocking call makes it: `sync_state` is set, the thread remembers the queue, and
`__lwp_threadqueue_enqueue` runs to its end. -/
def blockOn (fuel : Nat) (k : Kernel T W) (w : W) (t : T) (timeout : Bool) : Kernel T W × Option (Enq T W) :=
  let k := { k with executing := t }
  let k := lwpThreadqueueCsenter k w
  let k := k.setThr t (fun l => { l with wait := { l.wait with queue := some w } })
  lwpThreadqueueEnqueue fuel k ⟨t, w, timeout, .setstate⟩

structure PqState (T W : Type) where
  kernel : Kernel T W
  waiting : List T

inductive PqOp (T : Type) where
  | enqueue (t : T) (timeout : Bool)
  | dequeue
  | extract (t : T)
  | changepriority (t : T) (prio : Fin 256) (prependit : Bool)
  deriving DecidableEq, Repr

/-- Rounds that are enough for one enqueue: three before the search, and one for each leader. -/
def PqState.rounds (s : PqState T W) : Nat := s.waiting.length + 3

def pqNext (w : W) (s : PqState T W) : PqOp T → PqState T W
  | .enqueue t timeout => ⟨(blockOn s.rounds s.kernel w t timeout).1, s.waiting ++ [t]⟩
  | .dequeue =>
    let (k, ret) := lwpThreadqueueDequeuepriority s.kernel w
    ⟨k, (ret.map s.waiting.erase).getD s.waiting⟩
  | .extract t => ⟨lwpThreadqueueExtractpriority s.kernel t, s.waiting.erase t⟩
  | .changepriority t prio prependit => ⟨lwpThreadChangepriority s.kernel t prio prependit, s.waiting⟩

/-- A thread that enqueues itself is ready, one that is extracted waits, and the priority of a blocked thread stays. -/
def pqGuard (s : PqState T W) : PqOp T → Prop
  | .enqueue t _ => s.kernel.Ready t
  | .dequeue => True
  | .extract t => t ∈ s.waiting
  | .changepriority t _ _ => t ∉ s.waiting ∧ lwpClearstate (s.kernel.thr t).curState stTransient = (s.kernel.thr t).curState

instance (s : PqState T W) : ∀ op, Decidable (pqGuard s op)
  | .enqueue t _ => inferInstanceAs (Decidable (s.kernel.Ready t))
  | .dequeue => inferInstanceAs (Decidable True)
  | .extract _ => inferInstanceAs (Decidable (_ ∈ _))
  | .changepriority _ _ _ => inferInstanceAs (Decidable (_ ∧ _))

/-- **A queue of mode PRIORITY**, and the threads that block on it. -/
def pqSystem (w : W) : System (PqState T W) (PqOp T) where
  enabled := pqGuard
  next := pqNext w

instance (w : W) (s : PqState T W) (op : PqOp T) : Decidable ((pqSystem w).enabled s op) :=
  inferInstanceAs (Decidable (pqGuard s op))

/-! ## One step -/

/-- **What every run keeps.** -/
structure PqInv (w : W) (s : PqState T W) (Qs : QId T W → Option (List T)) : Prop where
  tq : TqInv s.kernel Qs none
  mode : s.kernel.mode w = .priority
  prio : PrioInv s.kernel Qs w s.waiting

theorem EnqFrame.prioOf {k k' : Kernel T W} {e : Enq T W} (h : EnqFrame k e k') (u : T) : k'.prioOf u = k.prioOf u := by
  unfold Kernel.prioOf
  by_cases hu : u = e.thread
  · subst hu
    exact h.prio.1
  · rw [h.other u hu]

variable {w : W} {s : PqState T W} {Qs : QId T W → Option (List T)}

/-- **The kernel as the search finds it**: the thread blocked, its timer running and its chain header emptied. -/
theorem PqInv.arrive (h : PqInv w s Qs) {t : T} (ht : s.kernel.Ready t) (timeout : Bool) :
    ∃ k Qs', TqInv k Qs' (some ⟨t, w, timeout, .link⟩) ∧
      PrioInv k Qs' w s.waiting ∧ k.mode w = .priority ∧ (k.tq w).syncState = .nothinghappend ∧
      Qs' (.block2n t) = some [] ∧ ∀ n, blockOn (n + 3) s.kernel w t timeout =
        match searchRound k ⟨t, w, timeout, .link⟩ (searchStart k.mem w (k.prioOf t)) with
        | (k, some e) => lwpThreadqueueEnqueue n k e
        | (k, none) => (k, none) := by
  set f : Lwp W → Lwp W := fun l => { l with wait := { l.wait with queue := some w } } with hf
  have hr : ({ s.kernel with executing := t } : Kernel T W).Ready t := ht
  have h₁ := (h.tq.switch t).enter w timeout (f := f) rfl hr ⟨rfl, rfl, rfl⟩ rfl rfl rfl
  set k₁ := (lwpThreadqueueCsenter { s.kernel with executing := t } w).setThr t f with hk₁
  obtain ⟨Qs₂, h₂, hw₂⟩ := h₁.enq_setstate rfl
  obtain ⟨-, -, hfr₂, -⟩ := h₁.enqNext
  have htq₂ : (lwpThreadSetstate k₁ t (k₁.tq w).state).tq = k₁.tq := by
    rw [lwpThreadSetstate_eq ((h₁.phase _ rfl).ready rfl), lwpReadyBlock_tq]
    rfl
  set k₂ := lwpThreadSetstate k₁ t (k₁.tq w).state with hk₂
  have h₃ := h₂.enq_timer rfl
  obtain ⟨-, -, hfr₃, -⟩ := h₂.enqNext
  set k₃ := if timeout then lwpWdInsertTicks (lwpWdInitialize k₂ t) t else k₂ with hk₃
  have htq₃ : k₃.tq = k₁.tq := by
    rw [hk₃, ← htq₂]
    split <;> rfl
  have h₄ := h₃.initBlock
  have hp₁ : ∀ u, k₁.prioOf u = s.kernel.prioOf u := by
    intro u
    by_cases hu : u = t
    · subst hu; simp [hk₁, Kernel.prioOf, hf, lwpThreadqueueCsenter, Kernel.setTq]
    · rw [hk₁, Kernel.prioOf, setThr_thr_ne _ _ _ hu]; rfl
  have hp₃ : ∀ u, k₃.prioOf u = s.kernel.prioOf u := fun u => (hfr₃.prioOf u).trans ((hfr₂.prioOf u).trans (hp₁ u))
  have hmode : k₃.mode w = .priority := by
    rw [Kernel.mode, htq₃, ← h.mode]
    simp [hk₁, lwpThreadqueueCsenter, Kernel.setTq, Kernel.mode]
  refine ⟨_, _, h₄, h.prio.congr (fun u _ => hp₃ u) (fun i => ?_) (fun i l _ => ?_), hmode, ?_, by simp, fun n => ?_⟩
  · rw [h₃.initBlock_held]
    exact hw₂.held.1 w i
  · rw [h₃.initBlock_held]
    exact hw₂.held.2 l
  · show (k₃.tq w).syncState = _
    rw [htq₃]
    simp [hk₁, lwpThreadqueueCsenter, Kernel.setTq]
  · have hm : (k₃.tq w).mode = .priority := hmode
    simp only [blockOn, lwpThreadqueueEnqueue, enqNext, ← hf, ← hk₁, ← hk₂, ← hk₃, hm]
    rfl

theorem PqInv.enqueue (h : PqInv w s Qs) {t : T} (ht : s.kernel.Ready t) (timeout : Bool) :
    (blockOn s.rounds s.kernel w t timeout).2 = none ∧ ∃ Qs', PqInv w (pqNext w s (.enqueue t timeout)) Qs' := by
  obtain ⟨k, Qs', h', hp, hm, hs, hb, hrun⟩ := h.arrive ht timeout
  set e : Enq T W := ⟨t, w, timeout, .link⟩ with he
  have hok := h'.phase e rfl
  have hfree : Free Qs' t := h'.free (by rw [Kernel.Ready, hok.blocked (by simp [he])]; exact (h'.state w).1) hok.out
  have hnot : t ∉ s.waiting := fun hmem => hok.out w ((hp.mem_iff t).1 hmem)
  obtain ⟨xs, hxs⟩ := Option.isSome_iff_exists.1 (h'.shape.priority w hm (headerIdx (k.prioOf t)))
  -- the list searched is no longer than the list of all who wait
  have hlen : xs.length ≤ s.waiting.length := by
    refine List.Subperm.length_le (List.subperm_of_subset (h'.sched.rep.nodup hxs) fun x hx => ?_)
    exact (hp.mem_iff x).2 ⟨_, .inl (by rw [held_eq hxs]; exact hx)⟩
  obtain ⟨l₁, l₂, hpos, hend⟩ := searchStart_pos h'.sched.rep hxs
  have hahead : ahead (reverseSearch (k.prioOf t)) l₁ l₂ = xs ∧ Passed k (k.prioOf t) (reverseSearch (k.prioOf t)) l₁ l₂ := by
    have hcat : l₁ ++ l₂ = xs := Option.some.inj (hpos.1.symm.trans hxs)
    unfold ahead Passed
    cases hrev : reverseSearch (k.prioOf t) with
    | true => rw [hrev] at hend; simp only [if_true] at hend ⊢; subst hend; simpa using hcat
    | false => rw [hrev] at hend; simp only [Bool.false_eq_true, if_false] at hend ⊢; subst hend; simpa using hcat
  obtain ⟨a, p, m₁, m₂, hdone, hpos', hplace⟩ := search_ends (e := e) (q := .wait w (headerIdx (k.prioOf t))) h'.sched.rep
    (fun c hc => statesset_of_waits h' ⟨_, .inl hc⟩) (hp.sorted _) s.waiting.length _ .link l₁ l₂ hpos
    (searchStart_prio _ _ _) hahead.2 (by rw [hahead.1]; exact hlen)
  have hres : blockOn s.rounds s.kernel w t timeout = (searchDone k w t a p, none) := (hrun s.waiting.length).trans hdone
  refine ⟨by rw [hres], ?_⟩
  have hnext : pqNext w s (.enqueue t timeout) = ⟨searchDone k w t a p, s.waiting ++ [t]⟩ := by
    simp only [pqNext, hres]
  rw [hnext]
  -- linked at its place on the header list, or behind the chain of its priority
  rcases hplace with ⟨hne, hright⟩ | ⟨heq, c, rfl, hc⟩
  · obtain ⟨m, hd, hrep⟩ := searchDone_leader h'.sched.rep hfree hs (Ne.symm hne) hpos'
    have hput := h'.shape.put_leader hfree hpos'.1 (fun hm' => by rw [hm] at hm'; cases hm') (fun _ => hb)
    rw [hd]
    refine ⟨_, h'.putOn (by simp [he]) hrep hput, ?_, (hp.put_leader hnot hpos'.1 (held_eq hb) hright).congr
      (fun _ _ => rfl) (fun _ => rfl) (fun _ _ _ => rfl)⟩
    simpa [Kernel.mode, Kernel.setTq] using hm
  · have hcm := hpos'.mem
    obtain ⟨ys, hys⟩ := Option.isSome_iff_exists.1 (h'.shape.chain w _ c hm hcm).1
    obtain ⟨m, hd, hrep⟩ := searchDone_chained h'.sched.rep hfree hs heq.symm hys
    have hput := h'.shape.put_chained h'.sched.rep hfree hm hcm hys hb
    rw [hd]
    refine ⟨_, h'.putOn (by simp [he]) hrep hput, ?_, (hp.put_chained hnot hcm hc hys).congr
      (fun _ _ => rfl) (fun _ => rfl) (fun _ _ _ => rfl)⟩
    simpa [Kernel.mode, Kernel.setTq] using hm

theorem PqInv.takeOff (h : PqInv w s Qs) {t : T} (ht : Waits Qs w t) :
    ∃ Qs', PqInv w ⟨lwpThreadUnblock (stopTimer { s.kernel with
      mem := lwpThreadqueueUnlink s.kernel.mem t } t) t, s.waiting.erase t⟩ Qs' := by
  obtain ⟨Qs₁, hun⟩ := h.tq.shape.unlinked h.mode ht
  have hr := h.tq.sched.rep
  obtain ⟨Qs', h', hw', -, -⟩ := h.tq.takeOff ht (hun.rep hr) (hun.took h.tq.shape hr)
  refine ⟨Qs', h', ?_, (h.prio.unlinked hr ht hun).congr (fun u _ => ?_) (hw'.held.1 w) (fun i l _ => hw'.held.2 l)⟩
  · rw [Kernel.mode, lwpThreadUnblock_stopTimer_tq]
    exact h.mode
  · simp only [Kernel.prioOf, lwpThreadUnblock_stopTimer_thr]
    by_cases hu : u = t
    · subst hu; rw [setThr_thr_self]; rfl
    · rw [setThr_thr_ne _ _ _ hu]

theorem PqInv.dequeue (h : PqInv w s Qs) (hne : s.waiting ≠ []) :
    ∃ t, lwpThreadqueueDequeuepriority s.kernel w = (lwpThreadUnblock (stopTimer { s.kernel with
        mem := lwpThreadqueueUnlink s.kernel.mem t } t) t, some t) ∧ Waits Qs w t ∧
      ∃ a b, s.waiting = a ++ t :: b ∧ (∀ u ∈ a, s.kernel.prioOf t < s.kernel.prioOf u) ∧
        ∀ u ∈ b, s.kernel.prioOf t ≤ s.kernel.prioOf u := by
  obtain ⟨u, hu⟩ := List.exists_mem_of_ne_nil _ hne
  obtain ⟨i, l, hl, -⟩ := h.prio.empty u hu
  obtain ⟨j, t, xs, hj, hq, hempty⟩ := firstHeader_some h.tq.sched.rep (h.tq.shape.priority w h.mode) hl
  have hfirst : s.kernel.mem (.first (.wait w j)) = .node t := h.tq.sched.rep.next_head hq
  refine ⟨t, ?_, ⟨j, .inl (by rw [held_eq hq]; simp)⟩, h.prio.first hq hempty⟩
  simp only [lwpThreadqueueDequeuepriority, hj, hfirst]

theorem PqInv.dequeue_empty (h : PqInv w s Qs) (hne : s.waiting = []) : lwpThreadqueueDequeuepriority s.kernel w = (s.kernel, none) := by
  have hno : ∀ u, ¬ Waits Qs w u := fun u hu => by
    have := (h.prio.mem_iff u).2 hu
    rw [hne] at this
    cases this
  have hm : (s.kernel.tq w).mode = .priority := h.mode
  have hd := h.tq.dequeue_none hno
  rw [lwpThreadqueueDequeue, hm] at hd
  have hsync : (s.kernel.tq w).syncState = .synchronized := by
    by_contra hn
    obtain ⟨e, he, -⟩ := (h.tq.sync w).1 hn
    cases he
  rw [show lwpThreadqueueDequeuepriority s.kernel w = _ from hd, lwpThreadqueueNobody, hsync]

theorem pqNext_inv (h : PqInv w s Qs) {op : PqOp T} (hg : pqGuard s op) : ∃ Qs', PqInv w (pqNext w s op) Qs' := by
  cases op with
  | enqueue t timeout => exact (h.enqueue hg timeout).2
  | dequeue =>
    by_cases hne : s.waiting = []
    · simp only [pqNext, h.dequeue_empty hne]
      exact ⟨Qs, h⟩
    · obtain ⟨t, hd, ht, -⟩ := h.dequeue hne
      simp only [pqNext, hd]
      exact h.takeOff ht
  | extract t =>
    have ht := (h.prio.mem_iff t).1 hg
    have hst : lwpStatewaitthreadqueue (s.kernel.thr t).curState = true := by
      rw [(h.tq.waits w t ht).1]
      exact (h.tq.state w).2.2.2
    simp only [pqNext, lwpThreadqueueExtractpriority, hst, if_true]
    exact h.takeOff ht
  | changepriority t prio prependit =>
    obtain ⟨hnot, htr⟩ := hg
    obtain ⟨Qs', h', hw'⟩ := h.tq.changepriority (t := t) (fun e he => by cases he) (fun _ => htr) prio prependit
    refine ⟨Qs', h', ?_, h.prio.congr (fun u hu => ?_) (hw'.held.1 w) (fun i l _ => hw'.held.2 l)⟩
    · simp only [pqNext, Kernel.mode, lwpThreadChangepriority_tq]
      exact h.mode
    · have hut : u ≠ t := fun e => hnot (e ▸ hu)
      simp only [pqNext, Kernel.prioOf, lwpThreadChangepriority_thr, setThr_thr_ne _ _ _ hut]

/-! ## Every run -/

theorem PqInv.start {k : Kernel T W} (hk : QueueIdle k w) {state : BitVec 32} (hst : WaitState state) (timeoutStatus : BitVec 32) :
    ∃ Qs, PqInv w ⟨lwpThreadqueueInit k w .priority state timeoutStatus, []⟩ Qs := by
  obtain ⟨Qs, h, hno⟩ := hk
  obtain ⟨h', hw'⟩ := h.threadqueueInit hno .priority hst timeoutStatus
  have hnil : ∀ i, held (freshQueue Qs w .priority) (.wait w i) = [] := fun i => by simp [held, freshQueue, ownHeader]
  refine ⟨_, h', by simp [Kernel.mode, lwpThreadqueueInit_tq], List.nodup_nil, fun i l hl => ?_, fun i => ?_,
    fun i l hl => ?_, fun i l hl => ?_, fun t ht => by cases ht⟩
  · rw [hnil] at hl; cases hl
  · rw [hnil]; exact List.Pairwise.nil
  · rw [hnil] at hl; cases hl
  · rw [hnil] at hl; cases hl

/-- The threads reachable from the header lists: each leader with its chain. -/
def reachable (headers : Fin 4 → List T) (chains : T → List T) : List T :=
  (List.finRange 4).flatMap (fun i => (headers i).flatMap (fun l => l :: chains l))

theorem PqInv.reachable (h : PqInv w s Qs) :
    (reachable (fun i => held Qs (.wait w i)) (fun l => held Qs (.block2n l))).Perm s.waiting := by
  have hr := h.tq.sched.rep
  refine (List.perm_ext_iff_of_nodup ?_ h.prio.nodup).2 fun t => ?_
  · unfold Libogc.reachable
    rw [List.nodup_flatMap]
    refine ⟨fun i _ => ?_, (List.nodup_finRange 4).imp fun {i j} hij => ?_⟩
    · rw [List.nodup_flatMap]
      refine ⟨fun l hl => List.nodup_cons.2 ⟨fun hl' => ?_, hr.held_nodup _⟩, (hr.held_nodup _).imp_of_mem ?_⟩
      · cases hr.held_inj hl hl'
      · intro l l' hl hl' hne x hx hx'
        rcases List.mem_cons.1 hx with rfl | hx <;> rcases List.mem_cons.1 hx' with rfl | hx'
        · exact hne rfl
        · cases hr.held_inj hl hx'
        · cases hr.held_inj hl' hx
        · cases hr.held_inj hx hx'
          exact hne rfl
    · intro x hx hx'
      obtain ⟨l, hl, hx⟩ := List.mem_flatMap.1 hx
      obtain ⟨l', hl', hx'⟩ := List.mem_flatMap.1 hx'
      rcases List.mem_cons.1 hx with rfl | hx <;> rcases List.mem_cons.1 hx' with rfl | hx'
      · cases hr.held_inj hl hl'
        exact hij rfl
      · cases hr.held_inj hl hx'
      · cases hr.held_inj hl' hx
      · cases hr.held_inj hx hx'
        cases hr.held_inj hl hl'
        exact hij rfl
  · rw [h.prio.mem_iff, Waits]
    simp only [Libogc.reachable, List.mem_flatMap, List.mem_finRange, true_and, List.mem_cons]
    constructor
    · rintro ⟨i, l, hl, rfl | hc⟩
      · exact ⟨i, .inl hl⟩
      · exact ⟨i, .inr ⟨l, hl, hc⟩⟩
    · rintro ⟨i, hl | ⟨l, hl, hc⟩⟩
      · exact ⟨i, t, hl, .inl rfl⟩
      · exact ⟨i, l, hl, .inr hc⟩

/-- **The order of a priority queue.**  In every run of enqueues, dequeues and extracts on a queue of mode PRIORITY, every
enqueue comes to its end; the four header lists and the chains behind their leaders hold exactly the threads that were
enqueued and not yet taken off, each once, and each of them blocked on this queue; a dequeue returns nobody exactly when
nobody waits, and otherwise a thread of numerically smallest priority, the earliest among those of its priority. -/
theorem priority_queue_order (k : Kernel T W) (w : W) (state timeoutStatus : BitVec 32) (ops : List (PqOp T))
    (s : PqState T W) (hk : QueueIdle k w) (hst : WaitState state)
    (hops : (pqSystem w).Legal ⟨lwpThreadqueueInit k w .priority state timeoutStatus, []⟩ ops)
    (hs : s = (pqSystem w).run ⟨lwpThreadqueueInit k w .priority state timeoutStatus, []⟩ ops) :
    (∀ t timeout, s.kernel.Ready t → (blockOn s.rounds s.kernel w t timeout).2 = none) ∧
    (∃ headers chains, (∀ i, IsQueue s.kernel.mem (.wait w i) (headers i)) ∧
      (∀ i, ∀ l ∈ headers i, IsQueue s.kernel.mem (.block2n l) (chains l)) ∧
      s.waiting.Nodup ∧ (reachable headers chains).Perm s.waiting) ∧
    (∀ t ∈ s.waiting, (s.kernel.thr t).curState = (s.kernel.tq w).state ∧ (s.kernel.thr t).wait.queue = some w) ∧
    ((lwpThreadqueueDequeuepriority s.kernel w).2 = none ↔ s.waiting = []) ∧
    ∀ t, (lwpThreadqueueDequeuepriority s.kernel w).2 = some t → ∃ a b, s.waiting = a ++ t :: b ∧
      (∀ u ∈ a, (s.kernel.thr t).curPrio < (s.kernel.thr u).curPrio) ∧
      ∀ u ∈ b, (s.kernel.thr t).curPrio ≤ (s.kernel.thr u).curPrio := by
  have hinv : ∃ Qs, PqInv w s Qs := by
    rw [hs]
    refine System.Legal.invariant (I := fun s => ∃ Qs, PqInv w s Qs) (fun s op ⟨Qs, h⟩ hg => ?_)
      (PqInv.start hk hst timeoutStatus) hops
    exact pqNext_inv h hg
  obtain ⟨Qs, h⟩ := hinv
  refine ⟨fun t timeout ht => (h.enqueue ht timeout).1,
    ⟨fun i => held Qs (.wait w i), fun l => held Qs (.block2n l), fun i => ?_, fun i l hl => ?_, h.prio.nodup, h.reachable⟩,
    fun t ht => h.tq.waits w t ((h.prio.mem_iff t).1 ht), ?_, fun t ht => ?_⟩
  · obtain ⟨xs, hxs⟩ := Option.isSome_iff_exists.1 (h.tq.shape.priority w h.mode i)
    simp only [held_eq hxs]
    exact h.tq.sched.rep.linked hxs
  · obtain ⟨xs, hxs⟩ := Option.isSome_iff_exists.1 (h.tq.shape.chain w i l h.mode hl).1
    simp only [held_eq hxs]
    exact h.tq.sched.rep.linked hxs
  · constructor
    · intro hd
      by_contra hne
      obtain ⟨t, he, -⟩ := h.dequeue hne
      rw [he] at hd
      cases hd
    · intro hne
      rw [h.dequeue_empty hne]
  · have hne : s.waiting ≠ [] := by
      intro hne
      rw [h.dequeue_empty hne] at ht
      cases ht
    obtain ⟨t', he, -, hab⟩ := h.dequeue hne
    rw [he] at ht
    cases ht
    exact hab

/-- Two threads of one priority and a more urgent one: the more urgent one is served first, then the earlier. -/
def pqSample : List (PqOp (Fin 3)) :=
  [.enqueue 2 false, .changepriority 0 190 false, .enqueue 0 true, .enqueue 1 false, .dequeue, .changepriority 1 190 false,
    .enqueue 1 false, .extract 2, .dequeue]

theorem priority_queue_order_sample :
    (pqSystem ()).Legal ⟨lwpThreadqueueInit (sampleKernel ⟨.synchronized, .fifo, stWaitingForSemaphore, 0⟩) () .priority
        stWaitingForSemaphore 3, []⟩ pqSample ∧
      ((pqSystem ()).run ⟨lwpThreadqueueInit (sampleKernel ⟨.synchronized, .fifo, stWaitingForSemaphore, 0⟩) () .priority
        stWaitingForSemaphore 3, []⟩ pqSample).waiting.Nodup := by
  have hl : (pqSystem ()).Legal ⟨lwpThreadqueueInit (sampleKernel ⟨.synchronized, .fifo, stWaitingForSemaphore, 0⟩) ()
      .priority stWaitingForSemaphore 3, []⟩ pqSample := by decide +kernel
  obtain ⟨-, ⟨_, _, -, -, hnd, -⟩, -⟩ := priority_queue_order _ () stWaitingForSemaphore 3 pqSample _
    (sampleKernel_idle (by decide)) (by decide) hl rfl
  exact ⟨hl, hnd⟩

end Libogc
