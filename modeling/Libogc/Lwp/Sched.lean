import Libogc.Lib.Runs
import Libogc.Lwp.Threads
/-!
# Sched — every run of the scheduler's operations

The operations of `lwp_threads.c` as the events of a transition system, from the initialised scheduler with its idle thread
started.  The guard of an event is what its callers respect; an event is also refused when it would leave the idle thread
not ready.
-/
namespace Libogc

open Links Runs

set_option linter.unusedSectionVars false

variable {T W : Type} [DecidableEq T] [DecidableEq W]

inductive SchedOp (T : Type) where
  | ready (t : T)
  | setstate (t : T) (state : BitVec 32)
  | clearstate (t : T) (state : BitVec 32)
  | suspend (t : T)
  | resume (t : T) (force : Bool)
  | changepriority (t : T) (prio : Fin 256) (prependit : Bool)
  | yield
  | rotateReadyqueue (prio : Fin 256)
  | resettimeslice
  | dispatch
  deriving DecidableEq, Repr

def schedNext (k : Kernel T W) : SchedOp T → Kernel T W
  | .ready t => lwpThreadReady k t
  | .setstate t state => lwpThreadSetstate k t state
  | .clearstate t state => lwpThreadClearstate k t state
  | .suspend t => lwpThreadSuspend k t
  | .resume t force => lwpThreadResume k t force
  | .changepriority t prio prependit => lwpThreadChangepriority k t prio prependit
  | .yield => lwpThreadYield k
  | .rotateReadyqueue prio => lwpRotateReadyqueue k prio
  | .resettimeslice => lwpThreadResettimeslice k
  | .dispatch => threadDispatch k

/-- What the callers of an operation respect. -/
def schedGuard (k : Kernel T W) : SchedOp T → Prop
  | .ready t => lwpStatedormant (k.thr t).curState = true
  | .setstate t state => k.Ready t ∧ state ≠ stReady
  | .resume t _ => lwpStatesuspended (k.thr t).curState = true
  | .yield | .rotateReadyqueue _ | .resettimeslice => k.Ready k.executing
  | .clearstate _ _ | .suspend _ | .changepriority _ _ _ | .dispatch => True

instance (k : Kernel T W) : ∀ op, Decidable (schedGuard k op)
  | .ready _ | .resume _ _ => inferInstanceAs (Decidable (_ = true))
  | .setstate _ _ => inferInstanceAs (Decidable (_ ∧ _))
  | .yield | .rotateReadyqueue _ | .resettimeslice => inferInstanceAs (Decidable (k.Ready _))
  | .clearstate _ _ | .suspend _ | .changepriority _ _ _ | .dispatch => inferInstanceAs (Decidable True)

/-- **The scheduler**, whose idle thread stays ready. -/
def schedSystem (W : Type) [DecidableEq W] (idle : T) : System (Kernel T W) (SchedOp T) where
  enabled k op := schedGuard k op ∧ (schedNext k op).Ready idle
  next := schedNext

instance (idle : T) (k : Kernel T W) (op : SchedOp T) : Decidable ((schedSystem W idle).enabled k op) :=
  inferInstanceAs (Decidable (_ ∧ _))

/-- Every thread's control block as `__lwp_thread_init` leaves it. -/
def threadsInit (k : Kernel T W) (prio : T → Fin 256) (isPreemptible : T → Bool) : Kernel T W :=
  { k with thr := fun t => (lwpThreadInit k t (prio t) (isPreemptible t)).thr t }

/-! ## The initialised scheduler -/

/-- The queues once the ready queues `ps` were emptied. -/
def emptied (Qs : QId T W → Option (List T)) (ps : List (Fin 256)) : QId T W → Option (List T)
  | .ready p => if p ∈ ps then some [] else Qs (.ready p)
  | q => Qs q

variable {Qs : QId T W → Option (List T)} {k : Kernel T W}

theorem emptied_rep {m : Mem (QId T W) T} (h : Rep m Qs) (ps : List (Fin 256)) :
    Rep (ps.foldl (fun m p => lwpQueueInitEmpty m (.ready p)) m) (emptied Qs ps) := by
  have he : emptied Qs ps = fun q => if q ∈ ps.map QId.ready then some [] else Qs q := by
    funext q
    cases q with
    | ready r => simp [emptied]
    | wait w i => simp [emptied]
    | block2n t => simp [emptied]
  rw [he]
  exact lwpQueueInitEmpty_foldl QId.ready h ps

/-- The queues of a scheduler with no thread waiting anywhere. -/
def NoWaiters (Qs : QId T W → Option (List T)) : Prop := (∀ w i, Qs (.wait w i) = none) ∧ ∀ t, Qs (.block2n t) = none

theorem NoWaiters.trans {Qs' : QId T W → Option (List T)} (h : NoWaiters Qs) (hw : SameWait Qs Qs') :
    NoWaiters Qs' := ⟨fun w i => (hw.1 w i).trans (h.1 w i), fun t => (hw.2 t).trans (h.2 t)⟩

/-- **What every run keeps.** -/
def SchedState (idle : T) (k : Kernel T W) : Prop :=
  ∃ Qs, SchedInv k Qs ∧ NoWaiters Qs ∧ HeirOk k ∧ k.Ready idle

theorem SchedInv.free (h : SchedInv k Qs) (hn : NoWaiters Qs) {t : T} (ht : ¬ k.Ready t) : Free Qs t :=
  h.free_of_waitless ht (fun w i xs hq => by rw [hn.1] at hq; cases hq) (fun u xs hq => by rw [hn.2] at hq; cases hq)

theorem lwpSysinit_state (k : Kernel T W) (idle : T) (prio : T → Fin 256) (isPreemptible : T → Bool) :
    SchedState idle (lwpSysinit (threadsInit k prio isPreemptible) idle) := by
  set k₀ := threadsInit k prio isPreemptible with hk₀
  set k₁ : Kernel T W := lwpThreadInit { lwpThreadCoreinit k₀ with prio := lwpPriorityInit } idle prioIdle true with hk₁
  have hnone := Rep.nothing k₀.mem
  have hmem : k₁.mem = (lwpThreadCoreinit k₀).mem := by
    simp only [hk₁, lwpThreadInit, lwpThreadSetpriority, setThr_mem]
  have hrep : Rep k₁.mem (emptied (fun _ => none) (List.finRange 256)) := by
    simp only [hmem, lwpThreadCoreinit]
    exact emptied_rep hnone (List.finRange 256)
  -- no thread is ready yet, and every thread's fields agree with its priority
  have hblk : ∀ t, (k₁.thr t).curState = stDormant ∧ (k₁.thr t).ready = (k₁.thr t).curPrio ∧
      (k₁.thr t).priomap = lwpPriomapInit (k₁.thr t).curPrio := by
    intro t
    by_cases ht : t = idle
    · subst ht; simp [hk₁, lwpThreadInit, lwpThreadSetpriority]
    · simp only [hk₁, lwpThreadInit, lwpThreadSetpriority, setThr_thr_ne _ _ _ ht]
      simp [lwpThreadCoreinit, hk₀, threadsInit, lwpThreadInit, lwpThreadSetpriority]
  have hprio : k₁.prio = lwpPriorityInit := by simp only [hk₁, lwpThreadInit, lwpThreadSetpriority, setThr_prio]
  have hnr : ∀ t, ¬ k₁.Ready t := fun t hr => by
    rw [Kernel.Ready, (hblk t).1] at hr
    exact absurd hr (by decide)
  have hsys : lwpSysinit k₀ idle = lwpThreadReady { k₁ with executing := idle, heir := .node idle } idle := rfl
  rw [hsys]
  clear_value k₁
  have h₁ : SchedInv k₁ (emptied (fun _ => none) (List.finRange 256)) := by
    refine ⟨hrep, fun p => ⟨[], by simp [emptied], fun t => ?_⟩, fun t => (hblk t).2, ?_⟩
    · simp [hnr t]
    · rw [hprio]
      exact Marks.init.congr fun p => by simp [hnr]
  have hnw : NoWaiters (emptied (fun _ => none) (List.finRange 256) : QId T W → Option (List T)) :=
    ⟨fun _ _ => by simp [emptied], fun _ => by simp [emptied]⟩
  have h₂ : SchedInv { k₁ with executing := idle, heir := .node idle } (emptied (fun _ => none) (List.finRange 256)) :=
    h₁.congr rfl rfl rfl
  obtain ⟨Qs', h', hw, hh⟩ := lwpThreadReady_sched h₂ (hnr idle) (h₂.free hnw (hnr idle))
  refine ⟨Qs', h', hnw.trans hw, hh, ?_⟩
  rw [Kernel.Ready, lwpThreadReady_thr, Kernel.setState, setThr_thr_self]

/-! ## One step -/

theorem schedNext_state {idle : T} {op : SchedOp T} (h : SchedState idle k) (he : (schedSystem W idle).enabled k op) :
    SchedState idle (schedNext k op) := by
  obtain ⟨Qs, hs, hn, hh, hi⟩ := h
  obtain ⟨hg, hi'⟩ := he
  have hstep : ∃ Qs', SchedInv (schedNext k op) Qs' ∧ SameWait Qs Qs' ∧ HeirOk (schedNext k op) := by
    cases op with
    | ready t =>
      have hnr : ¬ k.Ready t := fun hr => by
        rw [Kernel.Ready] at hr
        simp [schedGuard, lwpStatedormant, hr, stReady] at hg
      exact lwpThreadReady_sched hs hnr (hs.free hn hnr)
    | setstate t state =>
      obtain ⟨hr, hne⟩ := hg
      have hti : idle ≠ t := by
        rintro rfl
        rw [Kernel.Ready, schedNext, lwpThreadSetstate_eq hr, lwpReadyBlock_thr, setThr_thr_self] at hi'
        exact hne hi'
      simp only [schedNext, lwpThreadSetstate_eq hr]
      obtain ⟨Qs', h', -, hw⟩ := lwpReadyBlock_sched hs hr (f := ({ · with curState := state })) ⟨rfl, rfl, rfl⟩ hne
      exact ⟨Qs', h', hw, lwpReadyBlock_heir hs hh hr ⟨rfl, rfl, rfl⟩ hne hi hti⟩
    | clearstate t state =>
      obtain ⟨Qs', h', hw⟩ := lwpThreadClearstate_sched (s := state) hs (t := t) (fun hnr _ => hs.free hn hnr)
      exact ⟨Qs', h', hw, lwpThreadClearstate_heir hh t state⟩
    | suspend t =>
      obtain ⟨Qs', h', hw, hx⟩ := lwpThreadSuspend_sched hs t
      refine ⟨Qs', h', hw, hx hh ⟨idle, hi, ?_⟩⟩
      rintro rfl
      exact lwpThreadSuspend_not_ready k idle hi'
    | resume t force =>
      obtain ⟨Qs', h', hw, hx⟩ := lwpThreadResume_sched hs (t := t) (fun hnr => hs.free hn hnr) force
      exact ⟨Qs', h', hw, hx hh⟩
    | changepriority t prio prependit =>
      obtain ⟨Qs', h', hw, hx⟩ := lwpThreadChangepriority_sched hs (t := t) (fun hnr _ => hs.free hn hnr) prio prependit
      exact ⟨Qs', h', hw, hx hh⟩
    | yield =>
      obtain ⟨Qs', h', hw, hx⟩ := lwpThreadYield_sched hs hg
      exact ⟨Qs', h', hw, hx hh⟩
    | rotateReadyqueue prio =>
      obtain ⟨Qs', h', hw, hx⟩ := lwpRotateReadyqueue_sched hs hg prio
      exact ⟨Qs', h', hw, hx hh⟩
    | resettimeslice =>
      obtain ⟨Qs', h', hw, hx⟩ := lwpThreadResettimeslice_sched hs hg
      exact ⟨Qs', h', hw, hx hh⟩
    | dispatch =>
      refine ⟨Qs, ?_, SameWait.refl _, ?_⟩
      · simp only [schedNext, threadDispatch]
        split
        · split <;> exact hs.congr rfl rfl rfl
        · exact hs
      · simp only [schedNext, threadDispatch]
        split
        · split <;> exact hh.congr rfl rfl
        · exact hh
  obtain ⟨Qs', h', hw, hh'⟩ := hstep
  exact ⟨Qs', h', hn.trans hw, hh', hi'⟩

/-! ## Every run -/

/-- **The ready structure.**  In every run of the scheduler's operations from its initialisation in which the idle thread
stays ready, the bitmap records exactly the priorities whose ready queue is not empty; the ready queues link exactly the
ready threads, each once and in the queue of its priority; and the heir is a ready thread of the numerically smallest
priority that has one. -/
theorem scheduler_ready_structure (k : Kernel T W) (idle : T) (prio : T → Fin 256) (isPreemptible : T → Bool)
    (ops : List (SchedOp T)) (k' : Kernel T W)
    (hops : (schedSystem W idle).Legal (lwpSysinit (threadsInit k prio isPreemptible) idle) ops)
    (hk' : k' = (schedSystem W idle).run (lwpSysinit (threadsInit k prio isPreemptible) idle) ops) :
    (∀ p, k'.prio.records p = true ↔ lwpQueueIsempty k'.mem (.ready p) = false) ∧
    (∃ L : Fin 256 → List T, (∀ p, IsQueue k'.mem (.ready p) (L p)) ∧
      ∀ t p, (L p).count t = if k'.Ready t ∧ (k'.thr t).curPrio = p then 1 else 0) ∧
    ∃ h, k'.heir = .node h ∧ k'.Ready h ∧ lwpQueueIsempty k'.mem (.ready (k'.thr h).curPrio) = false ∧
      ∀ p, lwpQueueIsempty k'.mem (.ready p) = false → (k'.thr h).curPrio ≤ p := by
  have hst : SchedState idle k' := by
    rw [hk']
    refine System.Legal.invariant (I := SchedState idle) (fun s e hs he => ?_) (lwpSysinit_state _ _ _ _) hops
    exact schedNext_state hs he
  obtain ⟨Qs, hs, -, hh, -⟩ := hst
  choose L hL hmem using hs.queue
  have hempty : ∀ p, lwpQueueIsempty k'.mem (.ready p) = false ↔ ∃ t, k'.Ready t ∧ (k'.thr t).curPrio = p := by
    intro p
    rw [← Bool.not_eq_true, lwpQueueIsempty_iff hs.rep (hL p)]
    simp only [← hmem]
    exact ⟨List.exists_mem_of_ne_nil _, fun ⟨t, ht⟩ => List.ne_nil_of_mem ht⟩
  refine ⟨fun p => ?_, ⟨L, fun p => hs.rep.linked (hL p), fun t p => ?_⟩, ?_⟩
  · rw [hs.marks.records, hempty]
  · split
    · rename_i ht
      exact List.count_eq_one_of_mem (hs.rep.nodup (hL p)) ((hmem p t).2 ht)
    · rename_i ht
      exact List.count_eq_zero_of_not_mem (fun hm => ht ((hmem p t).1 hm))
  · obtain ⟨h, h1, h2, h3⟩ := hh
    refine ⟨h, h1, h2, (hempty _).2 ⟨h, h2, rfl⟩, fun p hp => ?_⟩
    obtain ⟨t, ht, rfl⟩ := (hempty p).1 hp
    exact h3 t ht

/-- Three threads: two are started, one blocks, the other is raised, suspended and resumed. -/
def schedSample : List (SchedOp (Fin 3)) :=
  [.ready 1, .ready 2, .dispatch, .setstate 1 stWaitingForSemaphore, .dispatch, .changepriority 2 9 true, .suspend 2,
    .clearstate 1 stBlocked, .resume 2 false, .yield]

def schedSampleStart : Kernel (Fin 3) Unit :=
  lwpSysinit (threadsInit (zeroKernel (Fin 3) Unit 0) (fun t => if t = 1 then 10 else 190) (fun _ => true)) 0

theorem scheduler_ready_structure_sample :
    (schedSystem Unit (0 : Fin 3)).Legal schedSampleStart schedSample ∧
      ∃ h, ((schedSystem Unit (0 : Fin 3)).run schedSampleStart schedSample).heir = .node h ∧
        ((schedSystem Unit (0 : Fin 3)).run schedSampleStart schedSample).Ready h := by
  have hl : (schedSystem Unit (0 : Fin 3)).Legal schedSampleStart schedSample := by decide +kernel
  obtain ⟨-, -, h, h1, h2, -⟩ := scheduler_ready_structure _ _ _ _ schedSample _ hl rfl
  exact ⟨hl, h, h1, h2⟩

end Libogc
