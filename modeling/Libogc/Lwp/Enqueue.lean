import Libogc.Lwp.Blocking
/-!
# Enqueue — the way into a queue

The steps of `enqNext`: what each does to the lists, and how the way in ends.  It ends in one of three ways, decided by
`sync_state` when the thread gets to its place: linked on the queue, timed out, or satisfied by a dequeue that came before
it was there (`EnqOutcome`).
-/
namespace Libogc

open Links

set_option linter.unusedSectionVars false

variable {T W : Type} [DecidableEq T] [DecidableEq W]

variable {k : Kernel T W} {Qs : QId T W → Option (List T)} {e : Enq T W} {c : T} {l₁ l₂ : List T} {p : Nat}

theorem TqInv.enq_setstate (h : TqInv k Qs (some e)) (hpc : e.pc = .setstate) :
    ∃ Qs', TqInv (lwpThreadSetstate k e.thread (k.tq e.queue).state) Qs' (some { e with pc := .timer }) ∧
      SameWait Qs Qs' := by
  have hok := h.phase e rfl
  have hr := hok.ready hpc
  have hne := (h.state e.queue).1
  rw [lwpThreadSetstate_eq hr]
  set k' := lwpReadyBlock (k.setThr e.thread ({ · with curState := (k.tq e.queue).state })) e.thread with hk'
  obtain ⟨Qs', hs', -, hw'⟩ := lwpReadyBlock_sched h.sched hr (f := ({ · with curState := (k.tq e.queue).state }))
    ⟨rfl, rfl, rfl⟩ hne
  have hthr : k'.thr = (k.setThr e.thread ({ · with curState := (k.tq e.queue).state })).thr := lwpReadyBlock_thr _ _
  have htq : k'.tq = k.tq := lwpReadyBlock_tq _ _
  have hmode : k'.mode = k.mode := by funext w; rw [Kernel.mode, htq]; rfl
  have hother : ∀ u, u ≠ e.thread → k'.thr u = k.thr u := fun u hu => by rw [hthr, setThr_thr_ne _ _ _ hu]
  have hself : k'.thr e.thread = { k.thr e.thread with curState := (k.tq e.queue).state } := by
    rw [hthr, setThr_thr_self]
  refine ⟨Qs', ⟨hs', by rw [hmode]; exact h.shape.congr hw', fun w => by rw [htq]; exact h.state w, fun w u hu => ?_,
    fun u hu => ?_, fun w => ?_, fun e' he' => ?_⟩, hw'⟩
  · rw [hw'.waits] at hu
    have hut : u ≠ e.thread := fun e' => hok.out w (e' ▸ hu)
    rw [hother u hut, htq]
    exact h.waits w u hu
  · have hu' : (k.thr u).timer = .active := by
      by_cases hut : u = e.thread
      · subst hut; rw [hself] at hu; exact hu
      · rw [hother u hut] at hu; exact hu
    rcases h.timer u hu' with ⟨w, hw⟩ | ⟨e', he', rfl⟩
    · exact .inl ⟨w, (hw'.waits w u).2 hw⟩
    · cases he'
      exact .inr ⟨_, rfl, rfl⟩
  · rw [htq, h.sync w]
    constructor
    · rintro ⟨e', he', rfl⟩
      cases he'
      exact ⟨_, rfl, rfl⟩
    · rintro ⟨e', he', rfl⟩
      cases he'
      exact ⟨e, rfl, rfl⟩
  · cases he'
    refine ⟨(lwpReadyBlock_executing _ _).trans hok.exec, by rw [hself]; exact hok.queue,
      fun w hw => hok.out w ((hw'.waits w _).1 hw), fun hp => (by cases hp), fun _ => by rw [hself, htq],
      fun _ => by rw [hself, htq]; exact hok.early (.inl hpc), by rw [hself, htq]; exact hok.fired,
      fun c p hp => by cases hp⟩

theorem TqInv.enq_timer (h : TqInv k Qs (some e)) (hpc : e.pc = .timer) :
    TqInv (if e.timeout then lwpWdInsertTicks (lwpWdInitialize k e.thread) e.thread else k) Qs
      (some { e with pc := .link }) := by
  have hok := h.phase e rfl
  have hsync : ∀ w, (k.tq w).syncState ≠ .synchronized ↔ e.queue = w := by
    intro w
    rw [h.sync w]
    simp
  cases hto : e.timeout with
  | false =>
    refine ⟨h.sched, h.shape, h.state, h.waits, fun u hu => ?_, fun w => ?_, fun e' he' => ?_⟩
    · exact (h.timer u hu).imp id (fun ⟨e', he', hu'⟩ => ⟨_, rfl, by cases he'; exact hu'⟩)
    · simpa using hsync w
    · cases he'
      exact ⟨hok.exec, hok.queue, hok.out, fun hp => (by cases hp), fun _ => hok.blocked (by rw [hpc]; simp),
        fun hp => by simp at hp, hok.fired, fun c p hp => by cases hp⟩
  | true =>
    have he : lwpWdInsertTicks (lwpWdInitialize k e.thread) e.thread =
        k.setThr e.thread ({ · with timer := .active }) := by
      simp [lwpWdInsertTicks, lwpWdInitialize, Kernel.setThr]
    simp only [if_true, he]
    set k' := k.setThr e.thread ({ · with timer := .active }) with hk'
    have hsame : ∀ u, (k.thr u).SamePrio (k'.thr u) ∧ (k'.thr u).curState = (k.thr u).curState ∧
        (k'.thr u).wait = (k.thr u).wait := by
      intro u
      by_cases hu : u = e.thread
      · subst hu; rw [hk', setThr_thr_self]; exact ⟨⟨rfl, rfl, rfl⟩, rfl, rfl⟩
      · rw [hk', setThr_thr_ne _ _ _ hu]; exact ⟨⟨rfl, rfl, rfl⟩, rfl, rfl⟩
    refine ⟨h.sched.setThr_samePrio _ ⟨rfl, rfl, rfl⟩ rfl, h.shape, h.state, fun w u hu => ?_, fun u hu => ?_,
      fun w => ?_, fun e' he' => ?_⟩
    · rw [(hsame u).2.1, (hsame u).2.2]; exact h.waits w u hu
    · by_cases hut : u = e.thread
      · exact .inr ⟨_, rfl, hut.symm⟩
      · rw [hk', setThr_thr_ne _ _ _ hut] at hu
        exact (h.timer u hu).imp id (fun ⟨e', he', hu'⟩ => ⟨_, rfl, by cases he'; exact hu'⟩)
    · show (k.tq w).syncState ≠ .synchronized ↔ _
      rw [hsync w]
      simp
    · cases he'
      refine ⟨hok.exec, by rw [(hsame _).2.2]; exact hok.queue, hok.out, fun hp => (by cases hp),
        fun _ => by rw [(hsame _).2.1]; exact hok.blocked (by rw [hpc]; simp), fun hp => by simp at hp,
        fun hs => absurd hs (hok.early (.inr hpc)).2, fun c p hp => by cases hp⟩

variable {m : Mem (QId T W) T} {q : QId T W} {w : W} {a : Link (QId T W) T}

variable {Qs' : QId T W → Option (List T)} {f : Lwp W → Lwp W} {rev : Bool} {t : T}

/-- **The thread is linked**: it waits, and nobody is on the way in any more. -/
theorem TqInv.putOn (h : TqInv k Qs (some e)) (hpc : e.pc ≠ .setstate) (hrep : Rep m Qs') (hput : Put k.mode Qs Qs' e.queue e.thread) :
    TqInv { k.setTq e.queue ({ · with syncState := .synchronized }) with mem := m } Qs' none := by
  have hok := h.phase e rfl
  set k' : Kernel T W := { k.setTq e.queue ({ · with syncState := .synchronized }) with mem := m } with hk'
  have htq : ∀ w, (k'.tq w).state = (k.tq w).state ∧ (k'.tq w).mode = (k.tq w).mode := by
    intro w
    by_cases hw : w = e.queue
    · subst hw; simp [hk', Kernel.setTq]
    · simp [hk', Kernel.setTq, hw]
  have hmode : k'.mode = k.mode := by funext w; exact (htq w).2
  have hs : SchedInv k' Qs' := (h.sched.remem hrep hput.ready).congr rfl rfl rfl
  refine ⟨hs, by rw [hmode]; exact hput.shape, fun w => by rw [(htq w).1]; exact h.state w, fun w u hu => ?_,
    fun u hu => ?_, fun w => ?_, fun e' he' => by cases he'⟩
  · rw [(htq w).1]
    rcases (hput.waits w u).1 hu with hu | ⟨rfl, rfl⟩
    · exact h.waits w u hu
    · exact ⟨hok.blocked hpc, hok.queue⟩
  · rcases h.timer u hu with ⟨w, hw⟩ | ⟨e', he', rfl⟩
    · exact .inl ⟨w, (hput.waits w u).2 (.inl hw)⟩
    · cases he'
      exact .inl ⟨e.queue, (hput.waits _ _).2 (.inr ⟨rfl, rfl⟩)⟩
  · by_cases hw : w = e.queue
    · subst hw
      simp [hk', Kernel.setTq]
    · have hne : k'.tq w = k.tq w := by simp [hk', Kernel.setTq, hw]
      rw [hne, h.sync w]
      constructor
      · rintro ⟨e', he', rfl⟩
        cases he'
        exact absurd rfl hw
      · rintro ⟨e', he', -⟩
        cases he'

theorem TqInv.unblocked (h : TqInv k Qs (some e)) (hpc : e.pc ≠ .setstate) (hf : (k.thr e.thread).SameBlock (f (k.thr e.thread)))
    (hna : (f (k.thr e.thread)).timer ≠ .active) :
    ∃ Qs', TqInv (lwpThreadUnblock ((k.setTq e.queue ({ · with syncState := .synchronized })).setThr e.thread f) e.thread)
        Qs' none ∧ SameWait Qs Qs' ∧
      (lwpThreadUnblock ((k.setTq e.queue ({ · with syncState := .synchronized })).setThr e.thread f) e.thread).Ready
        e.thread := by
  have hok := h.phase e rfl
  have hst := hok.blocked hpc
  set k₁ := (k.setTq e.queue ({ · with syncState := .synchronized })).setThr e.thread f with hk₁
  have hs₀ : SchedInv (k.setTq e.queue ({ · with syncState := .synchronized })) Qs := h.sched.congr rfl rfl rfl
  have hs₁ : SchedInv k₁ Qs := hs₀.setThr_samePrio e.thread hf.prio hf.state
  have hnr : ¬ k.Ready e.thread := by
    rw [Kernel.Ready, hst]; exact (h.state e.queue).1
  have hfree : Free Qs e.thread := h.free hnr hok.out
  obtain ⟨Qs', hs', hw'⟩ := lwpThreadClearstate_sched (s := stBlocked) hs₁ (t := e.thread) (fun _ _ => hfree)
  have hthr : (lwpThreadUnblock k₁ e.thread).thr =
      (k₁.setState e.thread (lwpClearstate (k₁.thr e.thread).curState stBlocked)).thr := lwpThreadClearstate_thr _ _ _
  have htq₀ : (lwpThreadUnblock k₁ e.thread).tq = k₁.tq := lwpThreadClearstate_tq _ _ _
  have hself : k₁.thr e.thread = f (k.thr e.thread) := by rw [hk₁, setThr_thr_self]; rfl
  have hready : (lwpThreadUnblock k₁ e.thread).Ready e.thread := by
    rw [Kernel.Ready, hthr, Kernel.setState, setThr_thr_self, hself, hf.state, hst]
    exact (h.state e.queue).2.1
  have hother : ∀ u, u ≠ e.thread → (lwpThreadUnblock k₁ e.thread).thr u = k.thr u := by
    intro u hu
    rw [hthr, Kernel.setState, setThr_thr_ne _ _ _ hu, hk₁, setThr_thr_ne _ _ _ hu]
    rfl
  have htq : ∀ w, ((lwpThreadUnblock k₁ e.thread).tq w).state = (k.tq w).state ∧
      ((lwpThreadUnblock k₁ e.thread).tq w).mode = (k.tq w).mode := by
    intro w
    rw [htq₀]
    by_cases hw : w = e.queue
    · subst hw; simp [hk₁, Kernel.setTq]
    · simp [hk₁, Kernel.setTq, hw]
  have hmode : (lwpThreadUnblock k₁ e.thread).mode = k.mode := by funext w; exact (htq w).2
  refine ⟨Qs', ⟨hs', by rw [hmode]; exact h.shape.congr hw', fun w => by rw [(htq w).1]; exact h.state w, fun w u hu => ?_,
    fun u hu => ?_, fun w => ?_, fun e' he' => by cases he'⟩, hw', hready⟩
  · rw [hw'.waits] at hu
    have hut : u ≠ e.thread := fun e' => hok.out w (e' ▸ hu)
    rw [hother u hut, (htq w).1]
    exact h.waits w u hu
  · have hut : u ≠ e.thread := by
      rintro rfl
      rw [hthr, Kernel.setState, setThr_thr_self, hself] at hu
      exact hna hu
    rw [hother u hut] at hu
    rcases h.timer u hu with ⟨w, hw⟩ | ⟨e', he', rfl⟩
    · exact .inl ⟨w, (hw'.waits w u).2 hw⟩
    · cases he'
      exact absurd rfl hut
  · rw [htq₀]
    by_cases hw : w = e.queue
    · subst hw
      simp [hk₁, Kernel.setTq]
    · have hne : k₁.tq w = k.tq w := by simp [hk₁, Kernel.setTq, hw]
      rw [hne, h.sync w]
      constructor
      · rintro ⟨e', he', rfl⟩
        cases he'
        exact absurd rfl hw
      · rintro ⟨e', he', -⟩
        cases he'

/-! ## How a step ends -/

/-- What every step of the way in leaves alone. -/
structure EnqFrame (k : Kernel T W) (e : Enq T W) (k' : Kernel T W) : Prop where
  exec : k'.executing = k.executing
  other : ∀ u, u ≠ e.thread → k'.thr u = k.thr u
  prio : (k.thr e.thread).SamePrio (k'.thr e.thread)
  res : (k'.thr e.thread).resCnt = (k.thr e.thread).resCnt ∧ (k'.thr e.thread).realPrio = (k.thr e.thread).realPrio
  tq : ∀ w, k'.tq w = { k.tq w with syncState := (k'.tq w).syncState }

/-- **How a step of the way in ends.** -/
inductive EnqOutcome (k : Kernel T W) (Qs : QId T W → Option (List T)) (e : Enq T W) (k' : Kernel T W)
    (Qs' : QId T W → Option (List T)) : Option (Enq T W) → Prop
  | going (e' : Enq T W) (thread : e'.thread = e.thread) (queue : e'.queue = e.queue) (tq : k'.tq = k.tq)
    (waits : ∀ w u, Waits Qs' w u ↔ Waits Qs w u) (wait : (k'.thr e.thread).wait = (k.thr e.thread).wait) :
    EnqOutcome k Qs e k' Qs' (some e')
  | linked (sync : (k.tq e.queue).syncState = .nothinghappend)
    (waits : ∀ w u, Waits Qs' w u ↔ Waits Qs w u ∨ (w = e.queue ∧ u = e.thread))
    (wait : (k'.thr e.thread).wait = (k.thr e.thread).wait) : EnqOutcome k Qs e k' Qs' none
  | timedOut (sync : (k.tq e.queue).syncState = .timeout) (waits : ∀ w u, Waits Qs' w u ↔ Waits Qs w u)
    (ready : k'.Ready e.thread)
    (wait : (k'.thr e.thread).wait = { (k.thr e.thread).wait with retCode := (k.tq e.queue).timeoutStatus }) :
    EnqOutcome k Qs e k' Qs' none
  | satisfied (sync : (k.tq e.queue).syncState = .satisfied) (waits : ∀ w u, Waits Qs' w u ↔ Waits Qs w u)
    (ready : k'.Ready e.thread) (wait : (k'.thr e.thread).wait = (k.thr e.thread).wait) : EnqOutcome k Qs e k' Qs' none

/-- An outcome depends on the start only through its queues and control blocks. -/
theorem EnqOutcome.of_eq {k₁ k' : Kernel T W} {Qs₁ : QId T W → Option (List T)} {o : Option (Enq T W)}
    (h : EnqOutcome k₁ Qs₁ e k' Qs' o) (ht : k₁.thr = k.thr) (hq : k₁.tq = k.tq) (hw : ∀ w u, Waits Qs₁ w u ↔ Waits Qs w u) :
    EnqOutcome k Qs e k' Qs' o := by
  cases h with
  | going e' h1 h2 h3 h4 h5 => exact .going e' h1 h2 (h3.trans hq) (fun w u => (h4 w u).trans (hw w u)) (ht ▸ h5)
  | linked h1 h2 h3 => exact .linked (hq ▸ h1) (fun w u => (h2 w u).trans (or_congr_left (hw w u))) (ht ▸ h3)
  | timedOut h1 h2 h3 h4 => exact .timedOut (hq ▸ h1) (fun w u => (h2 w u).trans (hw w u)) h3 (by rw [h4, ht, hq])
  | satisfied h1 h2 h3 h4 => exact .satisfied (hq ▸ h1) (fun w u => (h2 w u).trans (hw w u)) h3 (ht ▸ h4)

theorem setTq_sync_tq (k : Kernel T W) (q : W) (s : SyncState) (w : W) : (k.setTq q ({ · with syncState := s })).tq w =
      { k.tq w with syncState := ((k.setTq q ({ · with syncState := s })).tq w).syncState } := by
  by_cases hw : w = q
  · subst hw; simp [Kernel.setTq]
  · simp [Kernel.setTq, hw]

theorem unblocked_frame (k : Kernel T W) (e : Enq T W) (hp : (k.thr e.thread).SamePrio (f (k.thr e.thread)))
    (hr : (f (k.thr e.thread)).resCnt = (k.thr e.thread).resCnt ∧ (f (k.thr e.thread)).realPrio = (k.thr e.thread).realPrio) :
    EnqFrame k e (lwpThreadUnblock ((k.setTq e.queue ({ · with syncState := .synchronized })).setThr e.thread f) e.thread) ∧
      ((lwpThreadUnblock ((k.setTq e.queue ({ · with syncState := .synchronized })).setThr e.thread f) e.thread).thr
        e.thread).wait = (f (k.thr e.thread)).wait := by
  unfold lwpThreadUnblock
  refine ⟨⟨by simp [Kernel.setTq], fun u hu => ?_, ?_, ?_, fun w => ?_⟩, ?_⟩
  · rw [lwpThreadClearstate_thr, Kernel.setState, setThr_thr_ne _ _ _ hu, setThr_thr_ne _ _ _ hu]
    rfl
  · rw [lwpThreadClearstate_thr, Kernel.setState, setThr_thr_self, setThr_thr_self]
    exact hp
  · rw [lwpThreadClearstate_thr, Kernel.setState, setThr_thr_self, setThr_thr_self]
    exact hr
  · rw [lwpThreadClearstate_tq, setThr_tq]
    exact setTq_sync_tq k e.queue .synchronized w
  · rw [lwpThreadClearstate_thr, Kernel.setState, setThr_thr_self, setThr_thr_self]
    rfl

/-- **A thread that was overtaken goes on at once**, and the lists are as they were. -/
theorem TqInv.synchronize_same (h : TqInv k Qs (some e)) (hpc : e.pc ≠ .setstate)
    (hs : (k.tq e.queue).syncState ≠ .nothinghappend) : ∃ Qs', TqInv (lwpThreadqueueSynchronize k e.queue e.thread) Qs' none ∧
      EnqFrame k e (lwpThreadqueueSynchronize k e.queue e.thread) ∧
      EnqOutcome k Qs e (lwpThreadqueueSynchronize k e.queue e.thread) Qs' none ∧ SameWait Qs Qs' := by
  have hok := h.phase e rfl
  cases hsync : (k.tq e.queue).syncState with
  | synchronized => exact absurd hsync ((h.sync e.queue).2 ⟨e, rfl, rfl⟩)
  | nothinghappend => exact absurd hsync hs
  | timeout =>
    set f : Lwp W → Lwp W := fun l => { l with wait := { l.wait with retCode := (k.tq e.queue).timeoutStatus } } with hf
    have he : lwpThreadqueueSynchronize k e.queue e.thread =
        lwpThreadUnblock ((k.setTq e.queue ({ · with syncState := .synchronized })).setThr e.thread f) e.thread := by
      simp [lwpThreadqueueSynchronize, hsync, waitTimeout, Kernel.setTq, hok.queue, hf]
    obtain ⟨Qs', h', hw', hr'⟩ := h.unblocked hpc (f := f) ⟨⟨rfl, rfl, rfl⟩, rfl, rfl, id⟩ (hok.fired hsync)
    obtain ⟨hfr, hwt⟩ := unblocked_frame k e (f := f) ⟨rfl, rfl, rfl⟩ ⟨rfl, rfl⟩
    rw [he]
    exact ⟨Qs', h', hfr, .timedOut hsync hw'.waits hr' hwt, hw'⟩
  | satisfied =>
    set f : Lwp W → Lwp W := fun l => { l with timer := if l.timer = .active then .inactive else l.timer } with hf
    have he : lwpThreadqueueSynchronize k e.queue e.thread =
        lwpThreadUnblock ((k.setTq e.queue ({ · with syncState := .synchronized })).setThr e.thread f) e.thread := by
      simp [lwpThreadqueueSynchronize, hsync, stopTimer_eq, hf]
    have hna : (f (k.thr e.thread)).timer ≠ .active := by
      simp only [hf]
      split <;> simp_all
    obtain ⟨Qs', h', hw', hr'⟩ := h.unblocked hpc (f := f) ⟨⟨rfl, rfl, rfl⟩, rfl, rfl, fun ha => absurd ha hna⟩ hna
    obtain ⟨hfr, hwt⟩ := unblocked_frame k e (f := f) ⟨rfl, rfl, rfl⟩ ⟨rfl, rfl⟩
    rw [he]
    exact ⟨Qs', h', hfr, .satisfied hsync hw'.waits hr' hwt, hw'⟩

theorem TqInv.synchronize (h : TqInv k Qs (some e)) (hpc : e.pc ≠ .setstate) (hs : (k.tq e.queue).syncState ≠ .nothinghappend) :
    ∃ Qs', TqInv (lwpThreadqueueSynchronize k e.queue e.thread) Qs' none ∧
      EnqFrame k e (lwpThreadqueueSynchronize k e.queue e.thread) ∧
      EnqOutcome k Qs e (lwpThreadqueueSynchronize k e.queue e.thread) Qs' none := by
  obtain ⟨Qs', h', hfr, hout, -⟩ := h.synchronize_same hpc hs
  exact ⟨Qs', h', hfr, hout⟩

theorem putOn_frame (k : Kernel T W) (e : Enq T W) (m : Mem (QId T W) T) :
    EnqFrame k e { k.setTq e.queue ({ · with syncState := .synchronized }) with mem := m } :=
  ⟨rfl, fun _ _ => rfl, ⟨rfl, rfl, rfl⟩, ⟨rfl, rfl⟩, fun w => setTq_sync_tq k e.queue .synchronized w⟩

theorem TqInv.enqueuefifo (h : TqInv k Qs (some e)) (hpc : e.pc ≠ .setstate) (hm : (k.tq e.queue).mode = .fifo) :
    ∃ Qs', TqInv (lwpThreadqueueEnqueuefifo k e.queue e.thread) Qs' none ∧
      EnqFrame k e (lwpThreadqueueEnqueuefifo k e.queue e.thread) ∧
      EnqOutcome k Qs e (lwpThreadqueueEnqueuefifo k e.queue e.thread) Qs' none := by
  by_cases hs : (k.tq e.queue).syncState = .nothinghappend
  · have hok := h.phase e rfl
    have hnr : ¬ k.Ready e.thread := by
      rw [Kernel.Ready, hok.blocked hpc]; exact (h.state e.queue).1
    have hfree := h.free hnr hok.out
    obtain ⟨xs, hxs⟩ := Option.isSome_iff_exists.1 (h.shape.fifo e.queue hm).1
    have hback : Qs (.wait e.queue 0) = some (xs ++ []) := by simpa using hxs
    have hput := h.shape.put_leader hfree hback (fun _ => rfl)
      (fun hm' => by rw [Kernel.mode, hm] at hm'; cases hm')
    have hrep := lwpQueueAppendI_rep h.sched.rep hxs hfree
    have he : lwpThreadqueueEnqueuefifo k e.queue e.thread =
        { k.setTq e.queue ({ · with syncState := .synchronized }) with
          mem := lwpQueueAppendI k.mem (.wait e.queue 0) e.thread } := by
      simp [lwpThreadqueueEnqueuefifo, hs, Kernel.setTq]
    rw [he]
    exact ⟨_, h.putOn hpc hrep hput, putOn_frame k e _, .linked hs hput.waits rfl⟩
  · have he : lwpThreadqueueEnqueuefifo k e.queue e.thread = lwpThreadqueueSynchronize k e.queue e.thread := by
      unfold lwpThreadqueueEnqueuefifo
      split
      · rename_i hs'
        exact absurd hs' hs
      · rfl
    rw [he]
    exact h.synchronize hpc hs

/-! ## The search -/

/-- A place between two parts of a list, as the search in either direction names it. -/
def SearchPos (Qs : QId T W → Option (List T)) (q : QId T W) (rev : Bool) (a : Link (QId T W) T) (l₁ l₂ : List T) : Prop :=
  Qs q = some (l₁ ++ l₂) ∧ a = if rev then lastOf (.head q) l₁ else firstOf l₂ (.tail q)

theorem SearchPos.mem (h : SearchPos Qs q rev (.node c) l₁ l₂) : c ∈ held Qs q := by
  obtain ⟨hq, ha⟩ := h
  rw [held_eq hq, List.mem_append]
  cases rev with
  | true => exact .inl (mem_of_lastOf_eq (by simp) ha.symm)
  | false => exact .inr (mem_of_firstOf_eq (by simp) ha.symm)

theorem searchStart_pos (hr : Rep m Qs) {prio : Fin 256} {xs : List T} (hq : Qs (.wait w (headerIdx prio)) = some xs) :
    ∃ l₁ l₂, SearchPos Qs (.wait w (headerIdx prio)) (reverseSearch prio) (searchStart m w prio).1 l₁ l₂ ∧
      (if reverseSearch prio then l₂ = [] else l₁ = []) := by
  unfold searchStart
  split
  · rename_i hrev
    exact ⟨xs, [], ⟨by simpa using hq, by rw [if_pos hrev]; exact hr.prev_tail hq⟩, rfl⟩
  · rename_i hrev
    exact ⟨[], xs, ⟨by simpa using hq, by rw [if_neg hrev]; exact hr.next_head hq⟩, rfl⟩

theorem searchStart_prio (m : Mem (QId T W) T) (w : W) (prio : Fin 256) : (searchStart m w prio).2 ≠ prio.val := by
  unfold searchStart
  have := prio.isLt
  split
  · simp only; omega
  · simp only; omega

theorem SearchPos.next (hr : Rep m Qs) (hq : Qs q = some (l₁ ++ c :: l₂)) :
    SearchPos Qs q false (m (.next c)) (l₁ ++ [c]) l₂ ∧ SearchPos Qs q true (m (.prev c)) l₁ (c :: l₂) := by
  refine ⟨⟨by simpa using hq, ?_⟩, hq, ?_⟩
  · exact hr.next_node hq
  · exact hr.prev_node hq

theorem SearchPos.cases (h : SearchPos Qs q rev a l₁ l₂) : (∃ c, a = .node c) ∨ ∀ c, a ≠ .node c := by
  cases a with
  | node c => exact .inl ⟨c, rfl⟩
  | null => exact .inr fun c hc => by cases hc
  | head q => exact .inr fun c hc => by cases hc
  | tail q => exact .inr fun c hc => by cases hc

theorem searchDone_leader (hr : Rep k.mem Qs) (hfree : Free Qs t) (hs : (k.tq w).syncState = .nothinghappend)
    (hp : (k.thr t).curPrio.val ≠ p)
    (hpos : SearchPos Qs (.wait w (headerIdx (k.thr t).curPrio)) (reverseSearch (k.thr t).curPrio) a l₁ l₂) :
    ∃ m, searchDone k w t a p = { k.setTq w ({ · with syncState := .synchronized }) with mem := m } ∧
      Rep m (Function.update Qs (.wait w (headerIdx (k.thr t).curPrio)) (some (l₁ ++ t :: l₂))) := by
  obtain ⟨hq, ha⟩ := hpos
  unfold searchDone
  simp only [hs, ne_eq, not_true_eq_false, Kernel.setTq, hp, reduceIte]
  by_cases hrev : reverseSearch (k.thr t).curPrio = true
  · simp only [hrev, reduceIte] at ha ⊢
    exact ⟨_, rfl, by rw [ha]; exact linkAfter_rep hr hq hfree⟩
  · simp only [hrev] at ha ⊢
    exact ⟨_, rfl, by rw [ha]; exact linkBefore_rep hr hq hfree⟩

theorem searchDone_chained (hr : Rep k.mem Qs) (hfree : Free Qs t) (hs : (k.tq w).syncState = .nothinghappend)
    (hp : (k.thr t).curPrio.val = p) {ys : List T} (hq : Qs (.block2n c) = some ys) :
    ∃ m, searchDone k w t (.node c) p = { k.setTq w ({ · with syncState := .synchronized }) with mem := m } ∧
      Rep m (Function.update Qs (.block2n c) (some (ys ++ [t]))) := by
  unfold searchDone
  simp only [hs, ne_eq, not_true_eq_false, Kernel.setTq, hp, reduceIte]
  have hback : Qs (.block2n c) = some (ys ++ []) := by simpa using hq
  exact ⟨_, rfl, linkBefore_rep hr hback hfree⟩

/-- **The end of a search**: the thread is linked, unless it was overtaken. -/
theorem TqInv.searchDone (h : TqInv k Qs (some e)) (hpc : e.pc ≠ .setstate) (hm : k.mode e.queue = .priority)
    (hb : Qs (.block2n e.thread) = some [])
    (hpos : SearchPos Qs (.wait e.queue (headerIdx (k.thr e.thread).curPrio)) (reverseSearch (k.thr e.thread).curPrio) a l₁ l₂)
    (hp : (k.thr e.thread).curPrio.val = p → ∃ c, a = .node c) :
    ∃ Qs', TqInv (searchDone k e.queue e.thread a p) Qs' none ∧ EnqFrame k e (searchDone k e.queue e.thread a p) ∧
      EnqOutcome k Qs e (searchDone k e.queue e.thread a p) Qs' none := by
  by_cases hs : (k.tq e.queue).syncState = .nothinghappend
  · have hok := h.phase e rfl
    have hnr : ¬ k.Ready e.thread := by
      rw [Kernel.Ready, hok.blocked hpc]; exact (h.state e.queue).1
    have hfree := h.free hnr hok.out
    by_cases hpe : (k.thr e.thread).curPrio.val = p
    · obtain ⟨c, rfl⟩ := hp hpe
      have hc := hpos.mem
      obtain ⟨ys, hys⟩ := Option.isSome_iff_exists.1 (h.shape.chain _ _ c hm hc).1
      obtain ⟨m, he, hrep⟩ := searchDone_chained h.sched.rep hfree hs hpe hys
      have hput := h.shape.put_chained h.sched.rep hfree hm hc hys hb
      rw [he]
      exact ⟨_, h.putOn hpc hrep hput, putOn_frame k e _, .linked hs hput.waits rfl⟩
    · obtain ⟨m, he, hrep⟩ := searchDone_leader h.sched.rep hfree hs hpe hpos
      have hput := h.shape.put_leader hfree hpos.1 (fun hm' => by rw [hm] at hm'; cases hm') (fun _ => hb)
      rw [he]
      exact ⟨_, h.putOn hpc hrep hput, putOn_frame k e _, .linked hs hput.waits rfl⟩
  · have he : Libogc.searchDone k e.queue e.thread a p = lwpThreadqueueSynchronize k e.queue e.thread := by
      unfold Libogc.searchDone
      rw [if_pos hs]
    rw [he]
    exact h.synchronize hpc hs

/-- Letting interrupts in while the search stands at a thread it goes past. -/
theorem TqInv.searching (h : TqInv k Qs (some e)) (hpc : e.pc ≠ .setstate) (hm : k.mode e.queue = .priority)
    (hb : Qs (.block2n e.thread) = some []) (hp : p ≠ (k.thr e.thread).curPrio.val)
    (hc : c ∈ held Qs (.wait e.queue (headerIdx (k.thr e.thread).curPrio))) : TqInv k Qs (some { e with pc := .search c p }) := by
  have hok := h.phase e rfl
  refine ⟨h.sched, h.shape, h.state, h.waits, fun u hu => ?_, fun w => ?_, fun e' he' => ?_⟩
  · exact (h.timer u hu).imp id (fun ⟨e', he', hu'⟩ => ⟨_, rfl, by cases he'; exact hu'⟩)
  · rw [h.sync w]
    simp
  · cases he'
    refine ⟨hok.exec, hok.queue, hok.out, fun hp' => (by cases hp'), fun _ => hok.blocked hpc, fun hp' => by simp at hp',
      hok.fired, fun c' p' hp' => ?_⟩
    cases hp'
    exact ⟨hm, hb, hp, fun _ => hc⟩

theorem TqInv.searchRound (h : TqInv k Qs (some e)) (hpc : e.pc ≠ .setstate) (hm : k.mode e.queue = .priority)
    (hb : Qs (.block2n e.thread) = some []) {pos : Link (QId T W) T × Nat}
    (hpos : SearchPos Qs (.wait e.queue (headerIdx (k.thr e.thread).curPrio)) (reverseSearch (k.thr e.thread).curPrio) pos.1 l₁ l₂)
    (hp : pos.2 ≠ (k.thr e.thread).curPrio.val) :
    ∃ Qs', TqInv (searchRound k e pos).1 Qs' (searchRound k e pos).2 ∧ EnqFrame k e (searchRound k e pos).1 ∧
      EnqOutcome k Qs e (searchRound k e pos).1 Qs' (searchRound k e pos).2 := by
  obtain ⟨a, p⟩ := pos
  simp only at hpos hp
  rcases hpos.cases with ⟨c, rfl⟩ | hne
  · simp only [Libogc.searchRound]
    split
    · exact h.searchDone hpc hm hb hpos (fun _ => ⟨c, rfl⟩)
    · rename_i hgo
      have hcp : (k.thr c).curPrio.val ≠ (k.thr e.thread).curPrio.val := by
        intro heq
        have : (k.thr c).curPrio = (k.thr e.thread).curPrio := Fin.ext heq
        apply hgo
        unfold searchStops
        rw [this]
        split <;> simp
      exact ⟨Qs, h.searching hpc hm hb hcp hpos.mem, ⟨rfl, fun _ _ => rfl, ⟨rfl, rfl, rfl⟩, ⟨rfl, rfl⟩, fun _ => rfl⟩,
        .going _ rfl rfl rfl (fun _ _ => Iff.rfl) rfl⟩
  · have he : Libogc.searchRound k e (a, p) = (Libogc.searchDone k e.queue e.thread a p, none) := by
      simp only [Libogc.searchRound]
    rw [he]
    exact h.searchDone hpc hm hb hpos (fun heq => absurd heq.symm hp)

theorem TqInv.initBlock_held (h : TqInv k Qs (some e)) (q : QId T W) :
    held (Function.update Qs (.block2n e.thread) (some [])) q = held Qs q := by
  by_cases hq : q = .block2n e.thread
  · subst hq
    rw [held_update_self]
    by_contra hne
    obtain ⟨w, i, -, hl⟩ := h.shape.leader e.thread (Ne.symm hne)
    exact (h.phase e rfl).out w ⟨i, .inl hl⟩
  · rw [held_update_ne _ _ hq]

/-- Emptying the chain header of a thread that leads nothing changes no list. -/
theorem TqInv.initBlock_waits (h : TqInv k Qs (some e)) (w : W) (u : T) :
    Waits (Function.update Qs (.block2n e.thread) (some [])) w u ↔ Waits Qs w u := by
  simp only [Waits, h.initBlock_held]

theorem TqInv.initBlock (h : TqInv k Qs (some e)) : TqInv { k with mem := lwpQueueInitEmpty k.mem (.block2n e.thread) }
      (Function.update Qs (.block2n e.thread) (some [])) (some e) := by
  have hok := h.phase e rfl
  obtain ⟨hnl, -⟩ := h.shape.not_held hok.out
  have hheld := h.initBlock_held
  have hwait : ∀ w i, Function.update Qs (.block2n e.thread) (some []) (.wait w i) = Qs (.wait w i) := by
    intro w i; rw [Function.update_of_ne (by simp)]
  have hblk : ∀ u, Qs (.block2n u) = some [] → Function.update Qs (.block2n e.thread) (some []) (.block2n u) = some [] := by
    intro u hu
    by_cases he : u = e.thread
    · subst he; simp
    · rw [Function.update_of_ne (by simpa using he)]; exact hu
  have hwaits := h.initBlock_waits
  refine ⟨h.sched.remem (lwpQueueInitEmpty_rep h.sched.rep _) (fun p => by rw [Function.update_of_ne (by simp)]),
    ⟨fun w hm => ?_, fun w hm i => ?_, fun w i l hm hl => ?_, fun l hl => ?_⟩, h.state,
    fun w u hu => h.waits w u ((hwaits w u).1 hu), fun u hu => ?_, h.sync, fun e' he' => ?_⟩
  · rw [hwait]; simp only [hheld]; exact h.shape.fifo w hm
  · rw [hwait]; exact h.shape.priority w hm i
  · rw [hheld] at hl ⊢
    obtain ⟨h1, h2⟩ := h.shape.chain w i l hm hl
    have hle : l ≠ e.thread := fun e' => hnl w i (e' ▸ hl)
    refine ⟨by rw [Function.update_of_ne (by simpa using hle)]; exact h1, fun c hc => hblk c (h2 c hc)⟩
  · rw [hheld] at hl
    simp only [hheld]
    exact h.shape.leader l hl
  · exact (h.timer u hu).imp (fun ⟨w, hw⟩ => ⟨w, (hwaits w u).2 hw⟩) id
  · cases he'
    refine ⟨hok.exec, hok.queue, fun w hw => hok.out w ((hwaits w _).1 hw), hok.ready, hok.blocked, hok.early, hok.fired,
      fun c p hp => ?_⟩
    obtain ⟨h1, h2, h3, h4⟩ := hok.search c p hp
    exact ⟨h1, hblk _ h2, h3, fun hset => by rw [hheld]; exact h4 hset⟩

/-- **Every step of the way in keeps the queues in order**, and ends in one of the ways `EnqOutcome` lists. -/
theorem TqInv.enqNext (h : TqInv k Qs (some e)) :
    ∃ Qs', TqInv (enqNext k e).1 Qs' (enqNext k e).2 ∧ EnqFrame k e (enqNext k e).1 ∧
      EnqOutcome k Qs e (enqNext k e).1 Qs' (enqNext k e).2 := by
  have hok := h.phase e rfl
  unfold Libogc.enqNext
  cases hpc : e.pc with
  | setstate =>
    obtain ⟨Qs', h', hw'⟩ := h.enq_setstate hpc
    have heq := lwpThreadSetstate_eq (hok.ready hpc) (k.tq e.queue).state
    refine ⟨Qs', h', ?_, .going _ rfl rfl ?_ hw'.waits ?_⟩
    · rw [heq]
      refine ⟨lwpReadyBlock_executing _ _, fun u hu => ?_, ?_, ?_, fun w => ?_⟩
      · rw [lwpReadyBlock_thr, setThr_thr_ne _ _ _ hu]
      · rw [lwpReadyBlock_thr, setThr_thr_self]; exact ⟨rfl, rfl, rfl⟩
      · rw [lwpReadyBlock_thr, setThr_thr_self]; exact ⟨rfl, rfl⟩
      · rw [lwpReadyBlock_tq]; rfl
    · rw [heq, lwpReadyBlock_tq]; rfl
    · rw [heq, lwpReadyBlock_thr, setThr_thr_self]
  | timer =>
    refine ⟨Qs, h.enq_timer hpc, ?_, .going _ rfl rfl ?_ (fun _ _ => Iff.rfl) ?_⟩
    · simp only
      split
      · refine ⟨rfl, fun u hu => ?_, ?_, ?_, fun w => rfl⟩
        · rw [lwpWdInsertTicks, setThr_thr_ne _ _ _ hu, lwpWdInitialize, setThr_thr_ne _ _ _ hu]
        · rw [lwpWdInsertTicks, setThr_thr_self, lwpWdInitialize, setThr_thr_self]; exact ⟨rfl, rfl, rfl⟩
        · rw [lwpWdInsertTicks, setThr_thr_self, lwpWdInitialize, setThr_thr_self]; exact ⟨rfl, rfl⟩
      · exact ⟨rfl, fun _ _ => rfl, ⟨rfl, rfl, rfl⟩, ⟨rfl, rfl⟩, fun _ => rfl⟩
    · simp only
      split <;> rfl
    · simp only
      split
      · rw [lwpWdInsertTicks, setThr_thr_self, lwpWdInitialize, setThr_thr_self]
      · rfl
  | link =>
    have hne : e.pc ≠ .setstate := by rw [hpc]; simp
    cases hm : (k.tq e.queue).mode with
    | fifo =>
      obtain ⟨Qs', h', hf, ho⟩ := h.enqueuefifo hne hm
      exact ⟨Qs', h', hf, ho⟩
    | priority =>
      -- the chain header is emptied on the way; no list sees it
      have h₁ := h.initBlock
      have hm' : k.mode e.queue = .priority := hm
      obtain ⟨xs, hxs⟩ := Option.isSome_iff_exists.1 (h.shape.priority e.queue hm' (headerIdx (k.thr e.thread).curPrio))
      have hxs₁ : Function.update Qs (.block2n e.thread) (some []) (.wait e.queue (headerIdx (k.thr e.thread).curPrio)) =
          some xs := by rw [Function.update_of_ne (by simp)]; exact hxs
      obtain ⟨l₁, l₂, hpos, -⟩ := searchStart_pos h₁.sched.rep hxs₁
      obtain ⟨Qs', h', hf, ho⟩ := h₁.searchRound hne hm' (by simp) hpos (searchStart_prio _ _ _)
      exact ⟨Qs', h', ⟨hf.exec, hf.other, hf.prio, hf.res, hf.tq⟩, ho.of_eq rfl rfl h.initBlock_waits⟩
  | search c p =>
    obtain ⟨hm, hb, hp, hc⟩ := hok.search c p hpc
    have hne : e.pc ≠ .setstate := by rw [hpc]; simp
    simp only
    -- either the search starts over, or it steps past a thread that is still a leader
    have hpos : ∃ l₁ l₂, SearchPos Qs (.wait e.queue (headerIdx (k.thr e.thread).curPrio))
        (reverseSearch (k.thr e.thread).curPrio) (searchNext k e c p).1 l₁ l₂ ∧
        (searchNext k e c p).2 ≠ (k.thr e.thread).curPrio.val := by
      dsimp only [searchNext]
      split
      · obtain ⟨xs, hxs⟩ := Option.isSome_iff_exists.1 (h.shape.priority e.queue hm (headerIdx (k.thr e.thread).curPrio))
        obtain ⟨l₁, l₂, hpos, -⟩ := searchStart_pos h.sched.rep hxs
        exact ⟨l₁, l₂, hpos, searchStart_prio _ _ _⟩
      · rename_i hset
        obtain ⟨l₁, l₂, hq⟩ := exists_of_mem_held (hc (by simpa using hset))
        obtain ⟨hfwd, hrev⟩ := SearchPos.next h.sched.rep hq
        split
        · rename_i hr
          rw [hr]
          exact ⟨_, _, hrev, hp⟩
        · rename_i hr
          rw [Bool.not_eq_true] at hr
          rw [hr]
          exact ⟨_, _, hfwd, hp⟩
    obtain ⟨l₁, l₂, hpos, hp'⟩ := hpos
    exact h.searchRound hne hm hb hpos hp'

end Libogc
