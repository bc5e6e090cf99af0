import Libogc.Lwp.WaitLists
/-!
# Blocking — what the thread queues keep, whoever interrupts whom

`TqInv k Qs ph`: the lists are in shape, every waiting thread is blocked with its queue's state and remembers its queue, a
timer runs only for a thread that waits or is on its way in, and a queue's `sync_state` is set only while the executing
thread `ph` is on its way into it.  Every way off a queue is one rule (`TqInv.takeOff`); the way on is the steps of
`enqNext`.
-/
namespace Libogc

open Links

set_option linter.unusedSectionVars false

variable {T W : Type} [DecidableEq T] [DecidableEq W]

/-- The queue modes, which never change after a queue is initialised. -/
def Kernel.mode (k : Kernel T W) (w : W) : ThreadqMode := (k.tq w).mode

/-- **Where a thread on its way in stands.** -/
structure EnqOk (k : Kernel T W) (Qs : QId T W → Option (List T)) (e : Enq T W) : Prop where
  exec : k.executing = e.thread
  queue : (k.thr e.thread).wait.queue = some e.queue
  out : ∀ w, ¬ Waits Qs w e.thread
  ready : e.pc = .setstate → k.Ready e.thread
  blocked : e.pc ≠ .setstate → (k.thr e.thread).curState = (k.tq e.queue).state
  early : e.pc = .setstate ∨ e.pc = .timer → (k.thr e.thread).timer ≠ .active ∧ (k.tq e.queue).syncState ≠ .timeout
  fired : (k.tq e.queue).syncState = .timeout → (k.thr e.thread).timer ≠ .active
  search : ∀ c p, e.pc = .search c p → k.mode e.queue = .priority ∧ Qs (.block2n e.thread) = some [] ∧
    p ≠ (k.thr e.thread).curPrio.val ∧ (lwpStatesset (k.thr c).curState (k.tq e.queue).state = true →
      c ∈ held Qs (.wait e.queue (headerIdx (k.thr e.thread).curPrio)))

/-- A state a queue may block its threads with. -/
def WaitState (s : BitVec 32) : Prop :=
  s ≠ stReady ∧ lwpClearstate s stBlocked = stReady ∧ lwpClearstate s stTransient = s ∧ lwpStatewaitthreadqueue s = true

instance (s : BitVec 32) : Decidable (WaitState s) := inferInstanceAs (Decidable (_ ∧ _ ∧ _ ∧ _))

structure TqInv (k : Kernel T W) (Qs : QId T W → Option (List T)) (ph : Option (Enq T W)) : Prop where
  sched : SchedInv k Qs
  shape : WaitShape k.mode Qs
  state : ∀ w, WaitState (k.tq w).state
  waits : ∀ w t, Waits Qs w t → (k.thr t).curState = (k.tq w).state ∧ (k.thr t).wait.queue = some w
  timer : ∀ t, (k.thr t).timer = .active → (∃ w, Waits Qs w t) ∨ ∃ e, ph = some e ∧ e.thread = t
  sync : ∀ w, (k.tq w).syncState ≠ .synchronized ↔ ∃ e, ph = some e ∧ e.queue = w
  phase : ∀ e, ph = some e → EnqOk k Qs e

variable {k : Kernel T W} {Qs : QId T W → Option (List T)} {ph : Option (Enq T W)} {w : W} {t : T} {m : Mem (QId T W) T}

theorem TqInv.waits_unique (h : TqInv k Qs ph) {w' : W} (hw : Waits Qs w t) (hw' : Waits Qs w' t) : w = w' := by
  have h1 := (h.waits w t hw).2
  rw [(h.waits w' t hw').2] at h1
  cases h1
  rfl

theorem TqInv.not_ready (h : TqInv k Qs ph) (hw : Waits Qs w t) : ¬ k.Ready t := by
  rw [Kernel.Ready, (h.waits w t hw).1]
  exact (h.state w).1

variable {mode : W → ThreadqMode} {i : Fin 4} {f : Lwp W → Lwp W} {e : Enq T W}

theorem WaitShape.not_held (h : WaitShape mode Qs) (ht : ∀ w, ¬ Waits Qs w t) :
    (∀ w i, t ∉ held Qs (.wait w i)) ∧ ∀ l, t ∉ held Qs (.block2n l) := by
  refine ⟨fun w i hm => ht w ⟨i, .inl hm⟩, fun l hm => ?_⟩
  obtain ⟨w, i, -, hl⟩ := h.leader l (List.ne_nil_of_mem hm)
  exact ht w ⟨i, .inr ⟨l, hl, hm⟩⟩

theorem TqInv.free (h : TqInv k Qs ph) (hr : ¬ k.Ready t) (ht : ∀ w, ¬ Waits Qs w t) : Free Qs t := by
  obtain ⟨h1, h2⟩ := h.shape.not_held ht
  refine h.sched.free_of_waitless hr (fun w i xs hq => ?_) (fun u xs hq => ?_)
  · rw [← held_eq hq]; exact h1 w i
  · rw [← held_eq hq]; exact h2 u

/-! ## Fields the queue operations leave alone -/

section Fields
variable (k : Kernel T W) (t : T)

@[simp] theorem lwpThreadClearstate_executing (s : BitVec 32) : (lwpThreadClearstate k t s).executing = k.executing := by
  dsimp only [lwpThreadClearstate]; split <;> [split; skip] <;> simp [Kernel.setState]
@[simp] theorem lwpThreadClearstate_tq (s : BitVec 32) : (lwpThreadClearstate k t s).tq = k.tq := by
  dsimp only [lwpThreadClearstate]; split <;> [split; skip] <;> simp [Kernel.setState]

/-- The control block of a thread that leaves a queue. -/
def Lwp.takenOff (l : Lwp W) : Lwp W :=
  { l with
    timer := if l.timer = .active then .inactive else l.timer
    curState := lwpClearstate l.curState stBlocked }

theorem stopTimer_eq : stopTimer k t = k.setThr t (fun l => { l with timer := if l.timer = .active then .inactive else l.timer }) := by
  unfold stopTimer lwpWdIsactive
  by_cases ha : (k.thr t).timer = .active
  · simp [ha, lwpWdRemoveTicks, lwpWdDeactivate, Kernel.setThr]
  · simp [ha, Kernel.setThr]

theorem lwpThreadUnblock_stopTimer_thr : (lwpThreadUnblock (stopTimer k t) t).thr = (k.setThr t Lwp.takenOff).thr := by
  unfold lwpThreadUnblock
  rw [lwpThreadClearstate_thr, stopTimer_eq]
  simp [Kernel.setState, Kernel.setThr, Lwp.takenOff]

theorem lwpThreadUnblock_stopTimer_tq : (lwpThreadUnblock (stopTimer k t) t).tq = k.tq := by
  simp [lwpThreadUnblock, stopTimer_eq]

theorem lwpThreadUnblock_stopTimer_executing : (lwpThreadUnblock (stopTimer k t) t).executing = k.executing := by
  simp [lwpThreadUnblock, stopTimer_eq]

end Fields

/-! ## Taking a thread off -/

/-- Only ready queues and the taken thread's words differ: the scheduler's invariant carries over. -/
theorem SchedInv.remem {Qs' : QId T W → Option (List T)} (h : SchedInv k Qs) (hrep : Rep m Qs') (hr : ∀ p, Qs' (.ready p) = Qs (.ready p)) :
    SchedInv { k with mem := m } Qs' :=
  ⟨hrep, fun p => by rw [hr]; exact h.queue p, h.fields, h.marks⟩

/-- **The rule for every way off a queue**: once a waiting thread is off the lists, stopping its timer and unblocking it
makes it ready, and nobody else notices. -/
theorem TqInv.takeOff {Qs₁ : QId T W → Option (List T)} (h : TqInv k Qs ph) (hw : Waits Qs w t) (hrep : Rep m Qs₁)
    (htook : Took k.mode Qs Qs₁ t) : ∃ Qs', TqInv (lwpThreadUnblock (stopTimer { k with mem := m } t) t) Qs' ph ∧ SameWait Qs₁ Qs' ∧
      (∀ w' u, Waits Qs' w' u ↔ Waits Qs w' u ∧ u ≠ t) ∧
      (lwpThreadUnblock (stopTimer { k with mem := m } t) t).Ready t := by
  have hst := (h.waits w t hw).1
  have hnr := h.not_ready hw
  have hs₁ : SchedInv (stopTimer { k with mem := m } t) Qs₁ := by
    rw [stopTimer_eq]
    exact (h.sched.remem hrep htook.ready).setThr_samePrio t ⟨rfl, rfl, rfl⟩ rfl
  obtain ⟨Qs', hs', hw'⟩ := lwpThreadClearstate_sched (s := stBlocked) hs₁ (t := t) (fun _ _ => htook.free)
  have hthr : (lwpThreadUnblock (stopTimer { k with mem := m } t) t).thr = (k.setThr t Lwp.takenOff).thr :=
    lwpThreadUnblock_stopTimer_thr _ _
  have htq : (lwpThreadUnblock (stopTimer { k with mem := m } t) t).tq = k.tq := lwpThreadUnblock_stopTimer_tq _ _
  have hex : (lwpThreadUnblock (stopTimer { k with mem := m } t) t).executing = k.executing :=
    lwpThreadUnblock_stopTimer_executing _ _
  have hne : ∀ u, u ≠ t → (lwpThreadUnblock (stopTimer { k with mem := m } t) t).thr u = k.thr u := by
    intro u hu; rw [hthr, setThr_thr_ne _ _ _ hu]
  have hready : (lwpThreadUnblock (stopTimer { k with mem := m } t) t).Ready t := by
    rw [Kernel.Ready, hthr, setThr_thr_self]
    show lwpClearstate (k.thr t).curState stBlocked = stReady
    rw [hst]
    exact (h.state w).2.1
  have hwaits : ∀ w' u, Waits Qs' w' u ↔ Waits Qs w' u ∧ u ≠ t := by
    intro w' u; rw [hw'.waits]; exact htook.waits w' u
  have hmode : (lwpThreadUnblock (stopTimer { k with mem := m } t) t).mode = k.mode := by
    funext w'; rw [Kernel.mode, htq]; rfl
  refine ⟨Qs', ⟨hs', by rw [hmode]; exact htook.shape.congr hw', fun w' => by rw [htq]; exact h.state w', ?_, ?_,
    fun w' => by rw [htq]; exact h.sync w', ?_⟩, hw', hwaits, hready⟩
  · intro w' u hu
    obtain ⟨hu1, hu2⟩ := (hwaits w' u).1 hu
    rw [hne u hu2, htq]
    exact h.waits w' u hu1
  · intro u hu
    have hut : u ≠ t := by
      rintro rfl
      rw [hthr, setThr_thr_self] at hu
      simp only [Lwp.takenOff] at hu
      split at hu <;> simp_all
    rw [hne u hut] at hu
    exact (h.timer u hu).imp (Exists.imp fun w' hw'' => (hwaits w' u).2 ⟨hw'', hut⟩) id
  · intro e he
    have hok := h.phase e he
    have het : e.thread ≠ t := fun e' => hok.out w (e' ▸ hw)
    refine ⟨hex.trans hok.exec, by rw [hne _ het]; exact hok.queue, fun w' hw'' => hok.out w' ((hwaits w' _).1 hw'').1,
      fun hp => by rw [Kernel.Ready, hne _ het]; exact hok.ready hp,
      fun hp => by rw [hne _ het, htq]; exact hok.blocked hp, fun hp => by rw [hne _ het, htq]; exact hok.early hp,
      by rw [hne _ het, htq]; exact hok.fired, fun c p hp => ?_⟩
    obtain ⟨h1, h2, h2p, h3⟩ := hok.search c p hp
    refine ⟨by rw [hmode]; exact h1, ?_, by rw [hne _ het]; exact h2p, fun hset => ?_⟩
    · rw [hw'.2]
      exact htook.block _ hok.out h2
    · -- a search thread that was taken off is ready by now, so the check after the interrupt sees it
      have hct : c ≠ t := by
        rintro rfl
        exact not_ready_of_statesset hset hready
      rw [hne c hct, htq] at hset
      rw [hne _ het, hw'.held.1]
      exact htook.leader _ _ _ (h3 hset) hct

theorem WaitShape.no_chain (h : WaitShape mode Qs) (hr : Rep m Qs) (hm : mode w = .fifo) (ht : t ∈ held Qs (.wait w i)) :
    held Qs (.block2n t) = [] := by
  by_contra hne
  obtain ⟨w', i', hm', ht'⟩ := h.leader t hne
  cases hr.held_inj ht ht'
  rw [hm] at hm'
  cases hm'

theorem WaitShape.waits_fifo (h : WaitShape mode Qs) (hr : Rep m Qs) (hm : mode w = .fifo) : Waits Qs w t ↔ t ∈ held Qs (.wait w 0) := by
  constructor
  · rintro ⟨i, ht | ⟨l, hl, ht⟩⟩
    · by_cases hi : i = 0
      · exact hi ▸ ht
      · rw [(h.fifo w hm).2 i hi] at ht
        cases ht
    · rw [h.no_chain hr hm hl] at ht
      cases ht
  · exact fun ht => ⟨0, .inl ht⟩

theorem firstHeader_some (hr : Rep m Qs) (hs : ∀ i, (Qs (.wait w i)).isSome) (ht : t ∈ held Qs (.wait w i)) :
    ∃ j x xs, firstHeader m w = some j ∧ Qs (.wait w j) = some (x :: xs) ∧ ∀ i, i < j → held Qs (.wait w i) = [] := by
  have hne : ∀ j, lwpQueueIsempty m (.wait w j) = false ↔ held Qs (.wait w j) ≠ [] := by
    intro j
    obtain ⟨xs, hxs⟩ := Option.isSome_iff_exists.1 (hs j)
    rw [held_eq hxs, ← Bool.not_eq_true, lwpQueueIsempty_iff hr hxs]
  cases hf : firstHeader m w with
  | none =>
    have := List.find?_eq_none.1 hf i (List.mem_finRange i)
    rw [(hne i).2 (List.ne_nil_of_mem ht)] at this
    exact absurd rfl this
  | some j =>
    have hj : held Qs (.wait w j) ≠ [] := (hne j).1 (by simpa using List.find?_some hf)
    obtain ⟨xs, hxs⟩ := Option.isSome_iff_exists.1 (hs j)
    rw [held_eq hxs] at hj
    obtain ⟨x, ys, rfl⟩ := List.exists_cons_of_ne_nil hj
    refine ⟨j, x, ys, rfl, hxs, fun i hi => ?_⟩
    by_contra hn
    have hlt := List.find?_eq_some_iff_append.1 hf
    obtain ⟨-, as, bs, habs, has⟩ := hlt
    have hi' : i ∈ as := by
      have hmem := List.mem_finRange i
      have hsorted := List.pairwise_lt_finRange 4
      rw [habs] at hmem hsorted
      rcases List.mem_append.1 hmem with h1 | h1
      · exact h1
      · exfalso
        rcases List.mem_cons.1 h1 with h2 | h2
        · omega
        · have := (List.pairwise_cons.1 (List.pairwise_append.1 hsorted).2.1).1 i h2
          omega
    have := has i hi'
    rw [(hne i).2 hn] at this
    simp at this

/-- **A dequeue that finds a thread**: a thread that waits, off its lists. -/
theorem TqInv.dequeue_some (h : TqInv k Qs ph) {u : T} (hu : Waits Qs w u) :
    ∃ t m Qs₁, Waits Qs w t ∧ Rep m Qs₁ ∧ Took k.mode Qs Qs₁ t ∧
      lwpThreadqueueDequeue k w = (lwpThreadUnblock (stopTimer { k with mem := m } t) t, some t) := by
  have hr := h.sched.rep
  cases hm : (k.tq w).mode with
  | fifo =>
    have hm' : k.mode w = .fifo := hm
    obtain ⟨xs, hxs⟩ := Option.isSome_iff_exists.1 (h.shape.fifo w hm').1
    have hu' := (h.shape.waits_fifo hr hm').1 hu
    rw [held_eq hxs] at hu'
    obtain ⟨t, ys, rfl⟩ := List.exists_cons_of_ne_nil (List.ne_nil_of_mem hu')
    have ht : t ∈ held Qs (.wait w 0) := by rw [held_eq hxs]; simp
    have hne : lwpQueueIsempty k.mem (.wait w 0) = false := by
      rw [← Bool.not_eq_true, lwpQueueIsempty_iff hr hxs]; simp
    obtain ⟨hf1, hf2⟩ := lwpQueueFirstnodeI_rep hr hxs
    have hfront : Qs (.wait w 0) = some ([] ++ t :: ys) := hxs
    refine ⟨t, _, _, ⟨0, .inl ht⟩, hf1, h.shape.took_leader hr hfront (h.shape.no_chain hr hm' ht), ?_⟩
    simp [lwpThreadqueueDequeue, hm, lwpThreadqueueDequeuefifo, hne, hf2]
  | priority =>
    have hm' : k.mode w = .priority := hm
    have hex : ∃ i x, x ∈ held Qs (.wait w i) := by
      obtain ⟨i, hx | ⟨l, hl, -⟩⟩ := hu
      · exact ⟨i, u, hx⟩
      · exact ⟨i, l, hl⟩
    obtain ⟨i, x, hx⟩ := hex
    obtain ⟨j, t, xs, hj, hq, -⟩ := firstHeader_some hr (h.shape.priority w hm') hx
    have ht : Waits Qs w t := ⟨j, .inl (by rw [held_eq hq]; simp)⟩
    obtain ⟨Qs₁, hun⟩ := h.shape.unlinked hm' ht
    refine ⟨t, _, Qs₁, ht, hun.rep hr, hun.took h.shape hr, ?_⟩
    have hfirst : k.mem (.first (.wait w j)) = .node t := hr.next_head hq
    simp [lwpThreadqueueDequeue, hm, lwpThreadqueueDequeuepriority, hj, hfirst]

theorem TqInv.dequeue_none (h : TqInv k Qs ph) (hu : ∀ u, ¬ Waits Qs w u) : lwpThreadqueueDequeue k w = lwpThreadqueueNobody k w := by
  have hr := h.sched.rep
  have hempty : ∀ i, held Qs (.wait w i) = [] :=
    fun i => List.eq_nil_iff_forall_not_mem.2 fun x hx => hu x ⟨i, .inl hx⟩
  cases hm : (k.tq w).mode with
  | fifo =>
    obtain ⟨xs, hxs⟩ := Option.isSome_iff_exists.1 (h.shape.fifo w hm).1
    have hnil : xs = [] := by rw [← held_eq hxs]; exact hempty 0
    simp [lwpThreadqueueDequeue, hm, lwpThreadqueueDequeuefifo, (lwpQueueIsempty_iff hr hxs).2 hnil]
  | priority =>
    have hf : firstHeader k.mem w = none := by
      refine List.find?_eq_none.2 fun i _ => ?_
      obtain ⟨xs, hxs⟩ := Option.isSome_iff_exists.1 (h.shape.priority w hm i)
      have hnil : xs = [] := by rw [← held_eq hxs]; exact hempty i
      simp [(lwpQueueIsempty_iff hr hxs).2 hnil]
    simp [lwpThreadqueueDequeue, hm, lwpThreadqueueDequeuepriority, hf]

theorem TqInv.extract_eq (h : TqInv k Qs ph) (ht : Waits Qs w t) : ∃ m Qs₁, Rep m Qs₁ ∧ Took k.mode Qs Qs₁ t ∧
      lwpThreadqueueExtract k w t = lwpThreadUnblock (stopTimer { k with mem := m } t) t := by
  have hr := h.sched.rep
  have hst : lwpStatewaitthreadqueue (k.thr t).curState = true := by
    rw [(h.waits w t ht).1]; exact (h.state w).2.2.2
  cases hm : (k.tq w).mode with
  | fifo =>
    have ht' := (h.shape.waits_fifo hr hm).1 ht
    obtain ⟨l₁, l₂, hq⟩ := exists_of_mem_held ht'
    refine ⟨_, _, lwpQueueExtractI_rep hr hq, h.shape.took_leader hr hq (h.shape.no_chain hr hm ht'), ?_⟩
    simp [lwpThreadqueueExtract, hm, lwpThreadqueueExtractfifo, hst]
  | priority =>
    obtain ⟨Qs₁, hun⟩ := h.shape.unlinked hm ht
    refine ⟨_, Qs₁, hun.rep hr, hun.took h.shape hr, ?_⟩
    simp [lwpThreadqueueExtract, hm, lwpThreadqueueExtractpriority, hst]

/-! ## Steps that leave the lists alone -/

/-- A thread may change what neither the ready queues nor the wait lists depend on. -/
structure Lwp.SameBlock (l l' : Lwp W) : Prop where
  prio : l.SamePrio l'
  state : l'.curState = l.curState
  queue : l'.wait.queue = l.wait.queue
  timer : l'.timer = .active → l.timer = .active

theorem TqInv.setThr (h : TqInv k Qs ph) (hf : (k.thr t).SameBlock (f (k.thr t))) : TqInv (k.setThr t f) Qs ph := by
  have hsame : ∀ u, (k.thr u).SameBlock ((k.setThr t f).thr u) := by
    intro u
    by_cases hu : u = t
    · subst hu; rw [setThr_thr_self]; exact hf
    · rw [setThr_thr_ne _ _ _ hu]; exact ⟨⟨rfl, rfl, rfl⟩, rfl, rfl, id⟩
  refine ⟨h.sched.setThr_samePrio t hf.prio hf.state, h.shape, h.state, fun w u hu => ?_, fun u hu => ?_, h.sync,
    fun e he => ?_⟩
  · rw [(hsame u).state, (hsame u).queue]; exact h.waits w u hu
  · exact h.timer u ((hsame u).timer hu)
  · have hok := h.phase e he
    refine ⟨hok.exec, by rw [(hsame _).queue]; exact hok.queue, hok.out,
      fun hp => by rw [Kernel.Ready, (hsame _).state]; exact hok.ready hp,
      fun hp => by rw [(hsame _).state]; exact hok.blocked hp,
      fun hp => ⟨fun ha => (hok.early hp).1 ((hsame _).timer ha), (hok.early hp).2⟩,
      fun hs ha => hok.fired hs ((hsame _).timer ha), fun c p hp => ?_⟩
    obtain ⟨h1, h2, h3, h4⟩ := hok.search c p hp
    rw [(hsame _).prio.1, (hsame c).state]
    exact ⟨h1, h2, h3, h4⟩

theorem TqInv.setSync (h : TqInv k Qs (some e)) {s : SyncState} (hs : s ≠ .synchronized)
    (hto : s = .timeout → (k.thr e.thread).timer ≠ .active ∧ ¬ (e.pc = .setstate ∨ e.pc = .timer)) :
    TqInv (k.setTq e.queue ({ · with syncState := s })) Qs (some e) := by
  have htq : ∀ w, ((k.setTq e.queue ({ · with syncState := s })).tq w).state = (k.tq w).state ∧
      ((k.setTq e.queue ({ · with syncState := s })).tq w).mode = (k.tq w).mode := by
    intro w
    by_cases hw : w = e.queue
    · subst hw; simp [Kernel.setTq]
    · simp [Kernel.setTq, hw]
  have hmode : (k.setTq e.queue ({ · with syncState := s })).mode = k.mode := by funext w; exact (htq w).2
  have hself : ((k.setTq e.queue ({ · with syncState := s })).tq e.queue).syncState = s := by simp [Kernel.setTq]
  refine ⟨h.sched.congr rfl rfl rfl, by rw [hmode]; exact h.shape, fun w => by rw [(htq w).1]; exact h.state w,
    fun w u hu => by rw [(htq w).1]; exact h.waits w u hu, h.timer, fun w => ?_, fun e' he' => ?_⟩
  · by_cases hw : w = e.queue
    · subst hw
      rw [hself]
      exact ⟨fun _ => ⟨e, rfl, rfl⟩, fun _ => hs⟩
    · have hne : (k.setTq e.queue ({ · with syncState := s })).tq w = k.tq w := by simp [Kernel.setTq, hw]
      rw [hne]
      exact h.sync w
  · cases he'
    have hok := h.phase e rfl
    refine ⟨hok.exec, hok.queue, hok.out, hok.ready, fun hp => by rw [(htq _).1]; exact hok.blocked hp, fun hp => ?_,
      fun hs' => ?_, fun c p hp => ?_⟩
    · rw [hself]
      exact ⟨(hok.early hp).1, fun hst => (hto hst).2 hp⟩
    · rw [hself] at hs'
      exact (hto hs').1
    · rw [(htq _).1, hmode]
      exact hok.search c p hp

/-- **A dequeue that finds nobody** answers for the thread on its way in, once. -/
theorem TqInv.nobody (h : TqInv k Qs ph) (w : W) : TqInv (lwpThreadqueueNobody k w).1 Qs ph := by
  unfold lwpThreadqueueNobody
  cases hs : (k.tq w).syncState with
  | synchronized => exact h
  | satisfied => exact h
  | nothinghappend =>
    obtain ⟨e, rfl, rfl⟩ := (h.sync w).1 (by rw [hs]; simp)
    exact h.setSync (by simp) (by simp)
  | timeout =>
    obtain ⟨e, rfl, rfl⟩ := (h.sync w).1 (by rw [hs]; simp)
    exact h.setSync (by simp) (by simp)

theorem TqInv.switch (h : TqInv k Qs none) (t : T) : TqInv { k with executing := t } Qs none :=
  ⟨h.sched.congr rfl rfl rfl, h.shape, h.state, h.waits, h.timer, h.sync, fun _ he => by cases he⟩

/-- **A ready thread starts its way in**: `sync_state` is set and the thread remembers the queue. -/
theorem TqInv.enter (h : TqInv k Qs none) (w : W) (timeout : Bool) (hx : k.executing = t) (ht : k.Ready t)
    (hp : (k.thr t).SamePrio (f (k.thr t))) (hs : (f (k.thr t)).curState = (k.thr t).curState)
    (htm : (f (k.thr t)).timer = (k.thr t).timer) (hq : (f (k.thr t)).wait.queue = some w) :
    TqInv ((lwpThreadqueueCsenter k w).setThr t f) Qs (some ⟨t, w, timeout, .setstate⟩) := by
  have hout : ∀ w', ¬ Waits Qs w' t := fun w' hw' => h.not_ready hw' ht
  have hna : (k.thr t).timer ≠ .active := by
    intro ha
    rcases h.timer t ha with ⟨w', hw'⟩ | ⟨e, he, -⟩
    · exact hout w' hw'
    · cases he
  set k' := (lwpThreadqueueCsenter k w).setThr t f with hk'
  have htq : ∀ w', (k'.tq w').state = (k.tq w').state ∧ (k'.tq w').mode = (k.tq w').mode := by
    intro w'
    by_cases hw : w' = w
    · subst hw; simp [hk', lwpThreadqueueCsenter, Kernel.setTq]
    · simp [hk', lwpThreadqueueCsenter, Kernel.setTq, hw]
  have hsync : ∀ w', w' ≠ w → (k'.tq w').syncState = (k.tq w').syncState := by
    intro w' hw'
    simp [hk', lwpThreadqueueCsenter, Kernel.setTq, hw']
  have hself : (k'.tq w).syncState = .nothinghappend := by simp [hk', lwpThreadqueueCsenter, Kernel.setTq]
  have hmode : k'.mode = k.mode := by funext w'; exact (htq w').2
  have hne : ∀ u, u ≠ t → k'.thr u = k.thr u := by
    intro u hu
    rw [hk', setThr_thr_ne _ _ _ hu]
    rfl
  have hthr : k'.thr t = f (k.thr t) := by rw [hk', setThr_thr_self]; rfl
  have hsch : SchedInv (lwpThreadqueueCsenter k w) Qs := h.sched.congr rfl rfl rfl
  refine ⟨hsch.setThr_samePrio t hp hs, by rw [hmode]; exact h.shape, fun w' => by rw [(htq w').1]; exact h.state w',
    fun w' u hu => ?_, fun u hu => ?_, fun w' => ?_, fun e he => ?_⟩
  · have hut : u ≠ t := by
      rintro rfl
      exact hout w' hu
    rw [hne u hut, (htq w').1]
    exact h.waits w' u hu
  · have hut : u ≠ t := by
      rintro rfl
      rw [hthr, htm] at hu
      exact hna hu
    rw [hne u hut] at hu
    rcases h.timer u hu with hw' | ⟨e, he, -⟩
    · exact .inl hw'
    · cases he
  · by_cases hw : w' = w
    · subst hw
      rw [hself]
      exact ⟨fun _ => ⟨_, rfl, rfl⟩, fun _ => by simp⟩
    · rw [hsync w' hw, h.sync w']
      constructor
      · rintro ⟨e, he, -⟩
        cases he
      · rintro ⟨e, he, rfl⟩
        cases he
        exact absurd rfl hw
  · cases he
    refine ⟨hx, by rw [hthr]; exact hq, hout, fun _ => by rw [Kernel.Ready, hthr, hs]; exact ht, fun hp' => absurd rfl hp',
      fun _ => ⟨by rw [hthr, htm]; exact hna, by rw [hself]; simp⟩, fun hs' => ?_, fun c p hp' => by cases hp'⟩
    rw [hself] at hs'
    cases hs'

/-! ## Timeouts -/

/-- The control block of a thread whose wait timed out. -/
def Lwp.timedOut (status : BitVec 32) (l : Lwp W) : Lwp W :=
  { l with
    timer := .inactive
    wait := { l.wait with retCode := status }
    curState := lwpClearstate l.curState stBlocked }

/-- What an expiry does before the thread is taken off. -/
def Lwp.expired (status : BitVec 32) (l : Lwp W) : Lwp W :=
  { l with timer := .inactive, wait := { l.wait with retCode := status } }

theorem TqInv.tickle_eq (h : TqInv k Qs ph) (ht : Waits Qs w t) :
    lwpWdTickle k t = lwpThreadqueueExtract (k.setThr t (Lwp.expired (k.tq w).timeoutStatus)) w t := by
  have hq := (h.waits w t ht).2
  -- the executing thread is on its way in, so it is not the one that waits
  have hexec : ¬ ((k.tq w).syncState ≠ .synchronized ∧ lwpThreadIsexec k t = true) := by
    rintro ⟨hs, hx⟩
    obtain ⟨e, rfl, rfl⟩ := (h.sync w).1 hs
    have hok := h.phase e rfl
    have hxt : t = k.executing := by simpa [lwpThreadIsexec] using hx
    exact hok.out e.queue (by rw [← hok.exec, ← hxt]; exact ht)
  have hw : waitTimeout (lwpWdRemoveTicks k t) t = k.setThr t (Lwp.expired (k.tq w).timeoutStatus) := by
    simp [waitTimeout, lwpWdRemoveTicks, hq, Kernel.setThr, Lwp.expired]
  unfold lwpWdTickle lwpThreadqueueTimeout
  rw [hw]
  simp only [lwpWdRemoveTicks, setThr_thr_self, hq]
  exact if_neg hexec

/-- **A waiting thread times out**: it is taken off, with the queue's timeout status. -/
theorem TqInv.tickle_waiting (h : TqInv k Qs ph) (ht : Waits Qs w t) : ∃ Qs', TqInv (lwpWdTickle k t) Qs' ph ∧
      (∀ w' u, Waits Qs' w' u ↔ Waits Qs w' u ∧ u ≠ t) ∧ (lwpWdTickle k t).Ready t ∧
      (lwpWdTickle k t).thr = (k.setThr t (Lwp.timedOut (k.tq w).timeoutStatus)).thr ∧ (lwpWdTickle k t).tq = k.tq ∧
      (lwpWdTickle k t).executing = k.executing := by
  have h₁ : TqInv (k.setThr t (Lwp.expired (k.tq w).timeoutStatus)) Qs ph :=
    h.setThr ⟨⟨rfl, rfl, rfl⟩, rfl, rfl, fun ha => by cases ha⟩
  obtain ⟨m, Qs₁, hrep, htook, heq⟩ := h₁.extract_eq ht
  obtain ⟨Qs', h', -, hw', hr'⟩ := h₁.takeOff ht hrep htook
  rw [h.tickle_eq ht, heq]
  refine ⟨Qs', h', hw', hr', ?_, by rw [lwpThreadUnblock_stopTimer_tq]; rfl,
    by rw [lwpThreadUnblock_stopTimer_executing]; rfl⟩
  rw [lwpThreadUnblock_stopTimer_thr]
  simp [Kernel.setThr, Lwp.takenOff, Lwp.timedOut, Lwp.expired]

/-- **A thread on its way in times out**: the queue notes it, unless the thread was already satisfied. -/
theorem TqInv.tickle_entering (h : TqInv k Qs (some e)) (ha : (k.thr e.thread).timer = .active) :
    TqInv (lwpWdTickle k e.thread) Qs (some e) ∧
      (lwpWdTickle k e.thread).thr = (k.setThr e.thread ({ · with timer := .inactive })).thr ∧
      (lwpWdTickle k e.thread).tq =
        (if (k.tq e.queue).syncState ≠ .satisfied then k.setTq e.queue ({ · with syncState := .timeout }) else k).tq ∧
      (lwpWdTickle k e.thread).executing = k.executing := by
  have hok := h.phase e rfl
  have h₁ : TqInv (lwpWdRemoveTicks k e.thread) Qs (some e) :=
    h.setThr ⟨⟨rfl, rfl, rfl⟩, rfl, rfl, fun ha' => by cases ha'⟩
  have hs : (k.tq e.queue).syncState ≠ .synchronized := (h.sync e.queue).2 ⟨e, rfl, rfl⟩
  have hx : lwpThreadIsexec k e.thread = true := by simp [lwpThreadIsexec, hok.exec]
  have he : lwpWdTickle k e.thread = if (k.tq e.queue).syncState ≠ .satisfied then
      (lwpWdRemoveTicks k e.thread).setTq e.queue ({ · with syncState := .timeout })
      else lwpWdRemoveTicks k e.thread := by
    unfold lwpWdTickle lwpThreadqueueTimeout
    simp only [lwpWdRemoveTicks, setThr_thr_self, hok.queue]
    exact if_pos ⟨hs, hx⟩
  rw [he]
  split
  · refine ⟨h₁.setSync (by simp) (fun _ => ⟨?_, fun hp => (hok.early hp).1 ha⟩), rfl, rfl, rfl⟩
    rw [lwpWdRemoveTicks, setThr_thr_self]
    simp
  · exact ⟨h₁, rfl, rfl, rfl⟩

/-! ## Priorities -/

theorem lwpThreadChangepriority_keeps (htr : ¬ k.Ready t → lwpClearstate (k.thr t).curState stTransient = (k.thr t).curState)
    (prio : Fin 256) (b : Bool) (u : T) : ((lwpThreadChangepriority k t prio b).thr u).curState = (k.thr u).curState ∧
      ((lwpThreadChangepriority k t prio b).thr u).wait = (k.thr u).wait ∧
      ((lwpThreadChangepriority k t prio b).thr u).timer = (k.thr u).timer := by
  rw [lwpThreadChangepriority_thr]
  by_cases hu : u = t
  · subst hu
    rw [setThr_thr_self]
    refine ⟨?_, by simp, by simp⟩
    rw [Lwp.withPriority_curState]
    by_cases hr : k.Ready u
    · rw [Kernel.Ready] at hr; rw [hr]; rfl
    · exact htr hr
  · rw [setThr_thr_ne _ _ _ hu]; exact ⟨rfl, rfl, rfl⟩

/-- **A thread's priority may change wherever it is**, except while it is searching its own place. -/
theorem TqInv.changepriority (h : TqInv k Qs ph) (hns : ∀ e, ph = some e → e.thread = t → ∀ c p, e.pc ≠ .search c p)
    (htr : ¬ k.Ready t → lwpClearstate (k.thr t).curState stTransient = (k.thr t).curState) (prio : Fin 256) (b : Bool) :
    ∃ Qs', TqInv (lwpThreadChangepriority k t prio b) Qs' ph ∧ SameWait Qs Qs' := by
  obtain ⟨Qs', hs', hw', -⟩ := lwpThreadChangepriority_sched h.sched (t := t) (fun hnr hcl => by
    rw [htr hnr] at hcl
    exact absurd hcl hnr) prio b
  have hthr := lwpThreadChangepriority_thr k t prio b
  have htq := lwpThreadChangepriority_tq k t prio b
  have hex := lwpThreadChangepriority_executing k t prio b
  have hsame := lwpThreadChangepriority_keeps htr prio b
  have hmode : (lwpThreadChangepriority k t prio b).mode = k.mode := by funext w; rw [Kernel.mode, htq]; rfl
  refine ⟨Qs', ⟨hs', by rw [hmode]; exact h.shape.congr hw', fun w => by rw [htq]; exact h.state w, fun w u hu => ?_,
    fun u hu => ?_, fun w => by rw [htq]; exact h.sync w, fun e he => ?_⟩, hw'⟩
  · rw [(hsame u).1, (hsame u).2.1, htq]
    exact h.waits w u ((hw'.waits w u).1 hu)
  · rw [(hsame u).2.2] at hu
    exact (h.timer u hu).imp (fun ⟨w, hw⟩ => ⟨w, (hw'.waits w u).2 hw⟩) id
  · have hok := h.phase e he
    refine ⟨hex.trans hok.exec, by rw [(hsame _).2.1]; exact hok.queue, fun w hw => hok.out w ((hw'.waits w _).1 hw),
      fun hp => by rw [Kernel.Ready, (hsame _).1]; exact hok.ready hp,
      fun hp => by rw [(hsame _).1, htq]; exact hok.blocked hp,
      fun hp => by rw [(hsame _).2.2, htq]; exact hok.early hp,
      by rw [(hsame _).2.2, htq]; exact hok.fired, fun c p hp => ?_⟩
    have het : e.thread ≠ t := fun e' => hns e he e' c p hp
    obtain ⟨h1, h2, h3, h4⟩ := hok.search c p hp
    have hpr : (lwpThreadChangepriority k t prio b).thr e.thread = k.thr e.thread := by
      rw [hthr, setThr_thr_ne _ _ _ het]
    refine ⟨by rw [hmode]; exact h1, by rw [hw'.2]; exact h2, by rw [hpr]; exact h3, fun hset => ?_⟩
    rw [(hsame c).1, htq] at hset
    rw [hpr, hw'.held.1]
    exact h4 hset

end Libogc
