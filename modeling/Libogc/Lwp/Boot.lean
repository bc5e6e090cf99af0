import Libogc.Lwp.Blocking
import Libogc.Lwp.Sched
/-!
# Boot — initialised thread queues

A thread queue is initialised on a running kernel when its semaphore, mutex or message queue is created
(`TqInv.threadqueueInit`), and a kernel is in order once the scheduler and every queue are initialised (`Booting.ok`).
-/
namespace Libogc

open Links

set_option linter.unusedSectionVars false

variable {T W : Type} [DecidableEq T] [DecidableEq W]

/-- The header lists a queue of the mode uses. -/
def ownHeader (mode : ThreadqMode) (i : Fin 4) : Bool := mode = .priority ∨ i = 0

/-- The queues once the lists of `w` were emptied. -/
def freshQueue (Qs : QId T W → Option (List T)) (w : W) (mode : ThreadqMode) : QId T W → Option (List T)
  | .wait w' i => if w' = w ∧ ownHeader mode i then some [] else Qs (.wait w' i)
  | q => Qs q

variable {k : Kernel T W} {Qs : QId T W → Option (List T)}

theorem lwpThreadqueueInit_rep (h : Rep k.mem Qs) (w : W) (mode : ThreadqMode) (state timeoutStatus : BitVec 32) :
    Rep (lwpThreadqueueInit k w mode state timeoutStatus).mem (freshQueue Qs w mode) := by
  cases mode with
  | fifo =>
    have he : freshQueue Qs w .fifo = Function.update Qs (.wait w 0) (some []) := by
      funext q
      cases q with
      | ready p => simp [freshQueue]
      | block2n t => simp [freshQueue]
      | wait w' i => by_cases hq : w' = w ∧ i = 0 <;> simp [freshQueue, ownHeader, hq]
    rw [he]
    exact lwpQueueInitEmpty_rep h (.wait w 0)
  | priority =>
    have he : freshQueue Qs w .priority = fun q => if q ∈ (List.finRange 4).map (QId.wait w) then some [] else Qs q := by
      funext q
      cases q with
      | ready p => simp [freshQueue]
      | block2n t => simp [freshQueue]
      | wait w' i => by_cases hq : w = w' <;> simp [freshQueue, ownHeader, hq, eq_comm]
    rw [he]
    exact lwpQueueInitEmpty_foldl (QId.wait w) h (List.finRange 4)

theorem lwpThreadqueueInit_tq (k : Kernel T W) (w : W) (mode : ThreadqMode) (state timeoutStatus : BitVec 32) :
    (lwpThreadqueueInit k w mode state timeoutStatus).tq =
      Function.update k.tq w { state, mode, timeoutStatus, syncState := .synchronized } := by
  cases mode <;> rfl

theorem lwpThreadqueueInit_thr (k : Kernel T W) (w : W) (mode : ThreadqMode) (state timeoutStatus : BitVec 32) :
    (lwpThreadqueueInit k w mode state timeoutStatus).thr = k.thr := by
  cases mode <;> rfl

theorem lwpThreadqueueInit_prio (k : Kernel T W) (w : W) (mode : ThreadqMode) (state timeoutStatus : BitVec 32) :
    (lwpThreadqueueInit k w mode state timeoutStatus).prio = k.prio := by
  cases mode <;> rfl

/-- **A queue nobody waits on may be initialised at any time**: it is empty, and no other queue notices. -/
theorem TqInv.threadqueueInit (h : TqInv k Qs none) {w : W} (hw : ∀ t, ¬ Waits Qs w t) (mode : ThreadqMode)
    {state : BitVec 32} (hst : WaitState state) (timeoutStatus : BitVec 32) :
    TqInv (lwpThreadqueueInit k w mode state timeoutStatus) (freshQueue Qs w mode) none ∧
      ∀ w' t, Waits (freshQueue Qs w mode) w' t ↔ Waits Qs w' t := by
  have hnil : ∀ i, held Qs (.wait w i) = [] := fun i => List.eq_nil_iff_forall_not_mem.2 fun x hx => hw x ⟨i, .inl hx⟩
  have hheld : ∀ q, held (freshQueue Qs w mode) q = held Qs q := by
    intro q
    cases q with
    | ready p => rfl
    | block2n t => rfl
    | wait w' i =>
      by_cases hq : w' = w ∧ ownHeader mode i = true
      · obtain ⟨rfl, hi⟩ := hq
        rw [hnil i]
        simp [held, freshQueue, hi]
      · simp [held, freshQueue, hq]
  have hsome : ∀ w' i, (Qs (.wait w' i)).isSome → (freshQueue Qs w mode (.wait w' i)).isSome := by
    intro w' i hs
    simp only [freshQueue]
    split
    · rfl
    · exact hs
  have hwaits : ∀ w' t, Waits (freshQueue Qs w mode) w' t ↔ Waits Qs w' t := by
    intro w' t
    simp only [Waits, hheld]
  have htq := lwpThreadqueueInit_tq k w mode state timeoutStatus
  have hthr := lwpThreadqueueInit_thr k w mode state timeoutStatus
  have hself : (lwpThreadqueueInit k w mode state timeoutStatus).tq w =
      { state, mode, timeoutStatus, syncState := .synchronized } := by rw [htq, Function.update_self]
  have hother : ∀ w', w' ≠ w → (lwpThreadqueueInit k w mode state timeoutStatus).tq w' = k.tq w' :=
    fun w' hne => by rw [htq, Function.update_of_ne hne]
  have hs : SchedInv (lwpThreadqueueInit k w mode state timeoutStatus) (freshQueue Qs w mode) :=
    (h.sched.remem (lwpThreadqueueInit_rep h.sched.rep w mode state timeoutStatus) (fun _ => rfl)).congr rfl hthr
      (lwpThreadqueueInit_prio k w mode state timeoutStatus)
  refine ⟨⟨hs, ⟨fun w' hm => ?_, fun w' hm i => ?_, fun w' i l hm hl => ?_, fun l hl => ?_⟩, fun w' => ?_, fun w' t ht => ?_,
    fun t ht => ?_, fun w' => ?_, fun e he => by cases he⟩, hwaits⟩
  · simp only [hheld]
    by_cases hne : w' = w
    · subst hne
      rw [Kernel.mode, hself] at hm
      cases hm
      exact ⟨by simp [freshQueue, ownHeader], fun i _ => hnil i⟩
    · rw [Kernel.mode, hother w' hne] at hm
      exact ⟨hsome w' 0 (h.shape.fifo w' hm).1, (h.shape.fifo w' hm).2⟩
  · by_cases hne : w' = w
    · subst hne
      rw [Kernel.mode, hself] at hm
      cases hm
      simp [freshQueue, ownHeader]
    · rw [Kernel.mode, hother w' hne] at hm
      exact hsome w' i (h.shape.priority w' hm i)
  · rw [hheld] at hl ⊢
    have hne : w' ≠ w := by
      rintro rfl
      rw [hnil i] at hl
      cases hl
    rw [Kernel.mode, hother w' hne] at hm
    exact h.shape.chain w' i l hm hl
  · rw [hheld] at hl
    simp only [hheld]
    obtain ⟨w', i, hm, hl'⟩ := h.shape.leader l hl
    refine ⟨w', i, ?_, hl'⟩
    have hne : w' ≠ w := by
      rintro rfl
      rw [hnil i] at hl'
      cases hl'
    rw [Kernel.mode, hother w' hne]
    exact hm
  · by_cases hne : w' = w
    · subst hne; rw [hself]; exact hst
    · rw [hother w' hne]; exact h.state w'
  · rw [hwaits] at ht
    have hne : w' ≠ w := by
      rintro rfl
      exact hw t ht
    rw [hthr, hother w' hne]
    exact h.waits w' t ht
  · rw [hthr] at ht
    exact (h.timer t ht).imp (Exists.imp fun w' hw' => (hwaits w' t).2 hw') id
  · by_cases hne : w' = w
    · subst hne; rw [hself]; simp
    · rw [hother w' hne]; exact h.sync w'

/-! ## The initialised kernel -/

/-- A kernel whose ready queues and thread queues are in order, with no thread on its way into one. -/
def KernelOk (k : Kernel T W) : Prop := ∃ Qs, TqInv k Qs none

/-- A kernel in order, with nobody waiting on `w`. -/
def QueueIdle (k : Kernel T W) (w : W) : Prop := ∃ Qs, TqInv k Qs none ∧ ∀ t, ¬ Waits Qs w t

/-- The thread queues of the kernel, initialised one after the other. -/
def threadqueuesInit (cfg : W → ThrQueue) (ws : List W) (k : Kernel T W) : Kernel T W :=
  ws.foldl (fun k w => lwpThreadqueueInit k w (cfg w).mode (cfg w).state (cfg w).timeoutStatus) k

/-- The kernel while its queues are being initialised, `done` of them already. -/
structure Booting (cfg : W → ThrQueue) (k : Kernel T W) (Qs : QId T W → Option (List T)) (done : W → Prop) : Prop where
  sched : SchedInv k Qs
  timer : ∀ t, (k.thr t).timer ≠ .active
  empty : (∀ w i, held Qs (.wait w i) = []) ∧ ∀ t, held Qs (.block2n t) = []
  fields : ∀ w, done w → k.tq w = { cfg w with syncState := .synchronized }
  lists : ∀ w i, done w → ownHeader (cfg w).mode i → (Qs (.wait w i)).isSome

theorem Booting.init {cfg : W → ThrQueue} {done : W → Prop} (h : Booting cfg k Qs done) (w : W) :
    Booting cfg (lwpThreadqueueInit k w (cfg w).mode (cfg w).state (cfg w).timeoutStatus) (freshQueue Qs w (cfg w).mode)
      (fun w' => w' = w ∨ done w') := by
  have hthr := lwpThreadqueueInit_thr k w (cfg w).mode (cfg w).state (cfg w).timeoutStatus
  refine ⟨?_, fun t => by rw [hthr]; exact h.timer t, ⟨fun w' i => ?_, h.empty.2⟩, fun w' hw' => ?_, fun w' i hw' hi => ?_⟩
  · exact (h.sched.remem (lwpThreadqueueInit_rep h.sched.rep w _ _ _) (fun _ => rfl)).congr rfl hthr
      (lwpThreadqueueInit_prio k w _ _ _)
  · by_cases hq : w' = w ∧ ownHeader (cfg w).mode i = true
    · simp [held, freshQueue, hq]
    · rw [← h.empty.1 w' i]
      simp [held, freshQueue, hq]
  · rw [lwpThreadqueueInit_tq]
    by_cases hne : w' = w
    · subst hne
      rw [Function.update_self]
    · rw [Function.update_of_ne hne]
      exact h.fields w' (hw'.resolve_left hne)
  · simp only [freshQueue]
    split
    · rfl
    · rename_i hq
      exact h.lists w' i (hw'.resolve_left fun e => hq ⟨e, e ▸ hi⟩) hi

theorem Booting.inits {cfg : W → ThrQueue} : ∀ (ws : List W) {k : Kernel T W} {Qs : QId T W → Option (List T)}
    {done : W → Prop}, Booting cfg k Qs done →
      ∃ Qs', Booting cfg (threadqueuesInit cfg ws k) Qs' (fun w => w ∈ ws ∨ done w)
  | [], k, Qs, done, h => ⟨Qs, by simpa [threadqueuesInit] using h⟩
  | w :: ws, k, Qs, done, h => by
    obtain ⟨Qs', h'⟩ := Booting.inits ws (h.init w)
    refine ⟨Qs', h'.sched, h'.timer, h'.empty, fun w' hw' => h'.fields w' ?_, fun w' i hw' => h'.lists w' i ?_⟩
    · simp only [List.mem_cons] at hw'
      tauto
    · simp only [List.mem_cons] at hw'
      tauto

/-- **The initialised kernel is in order**, and nobody waits on any queue. -/
theorem Booting.ok {cfg : W → ThrQueue} {ws : List W} (h : Booting cfg k Qs (fun w => w ∈ ws ∨ False)) (hws : ∀ w, w ∈ ws)
    (hcfg : ∀ w, WaitState (cfg w).state) : TqInv k Qs none ∧ ∀ w t, ¬ Waits Qs w t := by
  have hf : ∀ w, k.tq w = { cfg w with syncState := .synchronized } := fun w => h.fields w (.inl (hws w))
  have hno : ∀ w t, ¬ Waits Qs w t := by
    rintro w t ⟨i, ht | ⟨l, hl, -⟩⟩
    · rw [h.empty.1] at ht; cases ht
    · rw [h.empty.1] at hl; cases hl
  refine ⟨⟨h.sched, ⟨fun w hm => ?_, fun w hm i => ?_, fun w i l _ hl => ?_, fun l hl => absurd (h.empty.2 l) hl⟩,
    fun w => by rw [hf]; exact hcfg w, fun w t ht => absurd ht (hno w t), fun t ht => absurd ht (h.timer t), fun w => ?_,
    fun e he => by cases he⟩, hno⟩
  · exact ⟨h.lists w 0 (.inl (hws w)) (by simp [ownHeader]), fun i _ => h.empty.1 w i⟩
  · refine h.lists w i (.inl (hws w)) ?_
    rw [Kernel.mode, hf] at hm
    simp [ownHeader, show (cfg w).mode = .priority from hm]
  · rw [h.empty.1] at hl
    cases hl
  · rw [hf]
    simp

theorem SchedState.booting {idle : T} (h : SchedState idle k) (ht : ∀ t, (k.thr t).timer ≠ .active) (cfg : W → ThrQueue) :
    ∃ Qs, Booting cfg k Qs (fun _ => False) := by
  obtain ⟨Qs, hs, hn, -, -⟩ := h
  exact ⟨Qs, hs, ht, ⟨fun w i => by rw [held, hn.1]; rfl, fun t => by rw [held, hn.2]; rfl⟩, fun _ h => absurd h id,
    fun _ _ h => absurd h id⟩

/-- A kernel with one thread queue and three threads, all of them started. -/
def sampleKernel (cfg : ThrQueue) : Kernel (Fin 3) Unit :=
  threadqueuesInit (fun _ => cfg) [()] ((schedSystem Unit (0 : Fin 3)).run schedSampleStart [.ready 1, .ready 2])

theorem sampleKernel_idle {cfg : ThrQueue} (hcfg : WaitState cfg.state) : QueueIdle (sampleKernel cfg) () := by
  have hl : (schedSystem Unit (0 : Fin 3)).Legal schedSampleStart [.ready 1, .ready 2] := by decide +kernel
  have hs : SchedState 0 ((schedSystem Unit (0 : Fin 3)).run schedSampleStart [.ready 1, .ready 2]) :=
    Runs.System.Legal.invariant (I := SchedState 0) (fun _ _ hs he => schedNext_state hs he) (lwpSysinit_state _ _ _ _) hl
  obtain ⟨Qs, hb⟩ := hs.booting (by decide +kernel) (fun _ => cfg)
  obtain ⟨Qs', hb'⟩ := Booting.inits [()] hb
  obtain ⟨htq, hno⟩ := hb'.ok (by simp) (fun _ => hcfg)
  exact ⟨Qs', htq, hno ()⟩

end Libogc
