import Libogc.Lwp.MutexPrio
import Libogc.Lwp.MutexRuns
import Libogc.Lwp.WaitOrder
/-!
# MutexOrder — who gets a mutex, and who is as urgent as its waiters

`__lwp_thread_changepriority` moves a ready thread to its new place on the ready queues, but a blocked thread keeps its place
on the wait queue, and the boost a blocking thread gives goes to the holder of the mutex only.  So both the order of the
wait queues and the inheritance hold as long as no step changes the `cur_prio` of a blocked thread (`keepsBlocked`).
-/
namespace Libogc

open Links Runs

set_option linter.unusedSectionVars false

variable {T W : Type} [DecidableEq T] [DecidableEq W]

/-- A thread blocked in a lock call. -/
def MutexState.Blocked (s : MutexState T W) (t : T) : Prop := (s.calls t).isSome ∧ ¬ s.Entering t ∧ ¬ s.kernel.Ready t

instance (s : MutexState T W) (t : T) : Decidable (s.Blocked t) := inferInstanceAs (Decidable (_ ∧ _ ∧ _))

/-- The `real_prio` that `LWP_SetThreadPriority` sets. -/
def ownPrio (prio : Fin 256) : Fin 256 := lwpPriotocore (if prio < prioLowest then prioLowest else prio)

/-- The thread about to give its priority to the holder of a mutex. -/
def MutexPhase.inheritor : MutexPhase T W → Option (Enq T W)
  | .inheriting e => some e
  | .idle | .entering _ | .unlocking _ => none

/-- The step leaves the `cur_prio` of every blocked thread: no priority is set that would take effect on one, and the holder
of the mutex that a thread is about to block on is not blocked itself, or is as urgent already. -/
def keepsBlocked (s : MutexState T W) : MutexPrioEvent T W → Prop
  | .setPriority _ t prio => ¬ s.Blocked t ∨ (s.kernel.thr t).curPrio = ownPrio prio ∨
      ((s.kernel.thr t).resCnt ≠ 0 ∧ (s.kernel.thr t).curPrio ≤ ownPrio prio)
  | .mutex .inherit => ∀ e ∈ s.phase.inheritor, ∀ holder ∈ (s.mutex e.queue).holder,
      ¬ s.Blocked holder ∨ (s.kernel.thr holder).curPrio ≤ (s.kernel.thr e.thread).curPrio
  | .mutex _ => True

instance (s : MutexState T W) : ∀ e, Decidable (keepsBlocked s e)
  | .setPriority _ _ _ => inferInstanceAs (Decidable (_ ∨ _ ∨ _))
  | .mutex .inherit => inferInstanceAs (Decidable (∀ e ∈ s.phase.inheritor, ∀ holder ∈ (s.mutex e.queue).holder, _ ∨ _))
  | .mutex (.lock _ _ _) | .mutex .enqueue | .mutex (.ret _) | .mutex (.unlock _ _) | .mutex .handover
  | .mutex (.expire _) => inferInstanceAs (Decidable True)

/-! ## Where the threads stand -/

/-- What the queues and the calls say of a thread. -/
structure Stands (s : MutexState T W) (Qs : QId T W → Option (List T)) (t : T) : Prop where
  calls : ∀ w, Waits Qs w t → s.calls t = some w
  enq : ∀ e, s.phase.enq = some e → e.thread = t → s.calls t = some e.queue
  blocked : ∀ w, s.calls t = some w → ¬ s.Entering t → ¬ s.kernel.Ready t → Waits Qs w t
  steady : ¬ s.kernel.Ready t → lwpClearstate (s.kernel.thr t).curState stTransient = (s.kernel.thr t).curState

/-- A thread on the queue of a mutex, or on its way there. -/
def Bound (s : MutexState T W) (Qs : QId T W → Option (List T)) (w : W) (t : T) : Prop :=
  Waits Qs w t ∨ ∃ e, s.phase.enq = some e ∧ e.queue = w ∧ e.thread = t

/-- The same, once it gave its priority to the holder. -/
def Behind (s : MutexState T W) (Qs : QId T W → Option (List T)) (w : W) (t : T) : Prop :=
  Waits Qs w t ∨ ∃ e, s.phase = .entering e ∧ e.queue = w ∧ e.thread = t

/-- **What every run keeps.** -/
structure HandInv (s : MutexState T W) (Qs : QId T W → Option (List T)) : Prop where
  wait : WaitOrder s.kernel Qs s.phase.enq
  attrs : ∀ w, ∃ r, (s.mutex w).attrs = mutexAttr r
  fresh : ∀ e, s.phase = .inheriting e → e.pc = .setstate
  passing : ∀ w, s.phase = .unlocking w → (s.mutex w).holder = none
  locked : ∀ w t, Bound s Qs w t → (s.mutex w).lock = .locked
  stands : ∀ t, Stands s Qs t

variable {s s' : MutexState T W} {Qs Qs' : QId T W → Option (List T)}

variable {t : T} {k : Kernel T W}

theorem Stands.congr (h : Stands s Qs t) (hcall : s'.calls t = s.calls t)
    (hstate : (s'.kernel.thr t).curState = (s.kernel.thr t).curState) (hwaits : ∀ w, Waits Qs' w t ↔ Waits Qs w t)
    (hent : s'.Entering t ↔ s.Entering t)
    (henq : ∀ e', s'.phase.enq = some e' → e'.thread = t → ∃ e, s.phase.enq = some e ∧ e.thread = t ∧ e.queue = e'.queue) :
    Stands s' Qs' t := by
  have hready : s'.kernel.Ready t ↔ s.kernel.Ready t := by rw [Kernel.Ready, hstate]; rfl
  refine ⟨fun w hw => by rw [hcall]; exact h.calls w ((hwaits w).1 hw), fun e' he' ht => ?_, fun w hc hn hr => ?_,
    fun hr => by rw [hstate]; exact h.steady (mt hready.2 hr)⟩
  · obtain ⟨e, he, het, hq⟩ := henq e' he' ht
    rw [hcall, ← hq]
    exact h.enq e he het
  · rw [hcall] at hc
    exact (hwaits w).2 (h.blocked w hc (mt hent.2 hn) (mt hready.2 hr))

theorem Stands.ready (htq : TqInv s.kernel Qs s.phase.enq) (hr : s.kernel.Ready t) (hn : s.phase.enq = none) : Stands s Qs t :=
  ⟨fun _ hw => absurd hr (htq.not_ready hw), fun e he => (by rw [hn] at he; cases he), fun _ _ _ hnr => absurd hr hnr,
    fun hnr => absurd hr hnr⟩

theorem HandInv.blocked_iff (h : HandInv s Qs) (w : W) (t : T) : s.calls t = some w ∧ s.Blocked t ↔ Waits Qs w t := by
  constructor
  · rintro ⟨hc, -, hn, hr⟩
    exact (h.stands t).blocked w hc hn hr
  · intro hw
    have hc := (h.stands t).calls w hw
    refine ⟨hc, by rw [hc]; rfl, fun hin => ?_, h.wait.tq.not_ready hw⟩
    obtain ⟨e, he, rfl⟩ := Option.map_eq_some_iff.1 hin
    exact (h.wait.tq.phase e he).out w hw

/-- Nobody gets behind a mutex but a thread that is about to give its priority to the holder. -/
def NoneNew (s s' : MutexState T W) (Qs Qs' : QId T W → Option (List T)) : Prop :=
  ∀ w t, Behind s' Qs' w t → Behind s Qs w t ∨ ∃ e, s.phase = .inheriting e ∧ e.queue = w ∧ e.thread = t

theorem HandInv.quiet (h : HandInv s Qs) (hwait : WaitOrder s'.kernel Qs' s'.phase.enq)
    (hattrs : ∀ w, (s'.mutex w).attrs = (s.mutex w).attrs) (hlock : ∀ w t, Bound s Qs w t → (s'.mutex w).lock = .locked)
    (hfresh : ∀ e, s'.phase = .inheriting e → s.phase = .inheriting e)
    (hpass : ∀ w, s'.phase = .unlocking w → (s'.mutex w).holder = none) (hcalls : s'.calls = s.calls)
    (hstate : ∀ u, (s'.kernel.thr u).curState = (s.kernel.thr u).curState)
    (hwaits : ∀ w u, Waits Qs' w u ↔ Waits Qs w u) (henq : s'.phase.enq = s.phase.enq) : HandInv s' Qs' ∧ NoneNew s s' Qs Qs' := by
  refine ⟨⟨hwait, fun w => by rw [hattrs]; exact h.attrs w, fun e he => h.fresh e (hfresh e he), hpass, fun w t hb => ?_,
    fun t => ?_⟩, fun w t hb => ?_⟩
  · refine hlock w t (hb.imp (hwaits w t).1 ?_)
    rw [henq]
    exact id
  · exact (h.stands t).congr (by rw [hcalls]) (hstate t) (fun w => hwaits w t)
      (by rw [MutexState.Entering, henq]; rfl) fun e' he' ht => ⟨e', henq ▸ he', ht, rfl⟩
  · rcases hb with hb | ⟨e, he, hq⟩
    · exact .inl (.inl ((hwaits w t).1 hb))
    · rw [he] at henq
      cases hp : s.phase with
      | inheriting e' => rw [hp] at henq; cases henq; exact .inr ⟨e, rfl, hq⟩
      | entering e' => rw [hp] at henq; cases henq; exact .inl (.inr ⟨e, hp, hq⟩)
      | idle => rw [hp] at henq; cases henq
      | unlocking w' => rw [hp] at henq; cases henq

/-- A step after which no thread is on its way in, and that changes at most how one ready thread stands. -/
theorem HandInv.moved (h : HandInv s Qs) (hn : s.phase.enq = none) (hwait : WaitOrder s'.kernel Qs' none)
    (hattrs : ∀ w, (s'.mutex w).attrs = (s.mutex w).attrs) (hlock : ∀ w u, Waits Qs w u → (s'.mutex w).lock = .locked)
    (hidle : s'.phase = .idle) (hready : s'.kernel.Ready t) (hcalls : ∀ u, u ≠ t → s'.calls u = s.calls u)
    (hstate : ∀ u, u ≠ t → (s'.kernel.thr u).curState = (s.kernel.thr u).curState)
    (hwaits : ∀ w u, u ≠ t → (Waits Qs' w u ↔ Waits Qs w u)) : HandInv s' Qs' ∧ NoneNew s s' Qs Qs' := by
  have hn' : s'.phase.enq = none := by rw [hidle]; rfl
  have hwait' : WaitOrder s'.kernel Qs' s'.phase.enq := by rw [hn']; exact hwait
  have hold : ∀ w u, Waits Qs' w u → Waits Qs w u := fun w u hw => by
    by_cases hu : u = t
    · subst hu; exact absurd hready (hwait.tq.not_ready hw)
    · exact (hwaits w u hu).1 hw
  refine ⟨⟨hwait', fun w => by rw [hattrs]; exact h.attrs w, fun e he => ?_, fun w hp => ?_, fun w u hb => ?_, fun u => ?_⟩,
    fun w u hb => ?_⟩
  · rw [hidle] at he
    cases he
  · rw [hidle] at hp
    cases hp
  · rcases hb with hb | ⟨e, he, -⟩
    · exact hlock w u (hold w u hb)
    · rw [hn'] at he; cases he
  · by_cases hu : u = t
    · subst hu
      exact .ready hwait'.tq hready hn'
    · refine (h.stands u).congr (hcalls u hu) (hstate u hu) (fun w => hwaits w u hu) ?_ fun e' he' => ?_
      · rw [MutexState.Entering, MutexState.Entering, hn, hn']
      · rw [hn'] at he'
        cases he'
  · rcases hb with hb | ⟨e, he, -⟩
    · exact .inl (.inl (hold w u hb))
    · rw [hidle] at he; cases he

/-! ## One step -/

theorem setMutex_attrs (s : MutexState T W) (w : W) (m : LwpMutex T) (h : m.attrs = (s.mutex w).attrs) (w' : W) :
    (s.setMutex w m w').attrs = (s.mutex w').attrs := by
  unfold MutexState.setMutex
  by_cases hw : w' = w
  · subst hw; rw [Function.update_self, h]
  · rw [Function.update_of_ne hw]

theorem HandInv.lock_set (h : HandInv s Qs) (w : W) (m : LwpMutex T) (hm : ∀ t, Bound s Qs w t → m.lock = .locked) (w' : W)
    (t : T) (hb : Bound s Qs w' t) : (s.setMutex w m w').lock = .locked := by
  unfold MutexState.setMutex
  by_cases hw : w' = w
  · subst hw; rw [Function.update_self]; exact hm t hb
  · rw [Function.update_of_ne hw]; exact h.locked w' t hb

theorem setRetCode_state (k : Kernel T W) (t : T) (c : BitVec 32) (u : T) : ((k.setRetCode t c).thr u).curState = (k.thr u).curState := by
  unfold Kernel.setRetCode
  by_cases hu : u = t
  · subst hu; rw [setThr_thr_self]
  · rw [setThr_thr_ne _ _ _ hu]

theorem addRes_state (k : Kernel T W) (t : T) (d : BitVec 32) (u : T) : ((k.addRes t d).thr u).curState = (k.thr u).curState := by
  unfold Kernel.addRes
  by_cases hu : u = t
  · subst hu; rw [setThr_thr_self]
  · rw [setThr_thr_ne _ _ _ hu]

variable {ph : Option (Enq T W)} {e : Enq T W} {w : W} {idle : T} {ws : List W}

theorem WaitOrder.setRetCode (h : WaitOrder k Qs ph) (t : T) (c : BitVec 32) :
    WaitOrder (k.setRetCode t c) Qs ph := h.setThr ⟨⟨rfl, rfl, rfl⟩, rfl, rfl, id⟩

theorem WaitOrder.addRes (h : WaitOrder k Qs ph) (t : T) (d : BitVec 32) :
    WaitOrder (k.addRes t d) Qs ph := h.setThr ⟨⟨rfl, rfl, rfl⟩, rfl, rfl, id⟩

theorem HandInv.switch (h : HandInv s Qs) (hph : s.phase = .idle) (t : T) : WaitOrder { s.kernel with executing := t } Qs none := by
  have hw := h.wait
  rw [hph] at hw
  exact WaitOrder.switch hw t

theorem HandInv.lock (h : HandInv s Qs) (hph : s.phase = .idle) (hr : s.kernel.Ready t) (w : W) (call : MutexCall) :
    HandInv (mutexNext s (.lock t w call)) Qs ∧ NoneNew s (mutexNext s (.lock t w call)) Qs Qs := by
  obtain ⟨r, ha⟩ := h.attrs w
  have hnone : s.phase.enq = none := by rw [hph]; rfl
  have h₀ := h.switch hph t
  have hseize := lwpMutexSeize_cases { s.kernel with executing := t } ha w call.waitStatus call.timeout
  cases hres : lwpMutexSeize { s.kernel with executing := t } (s.mutex w) w call.waitStatus call.timeout with
  | mk k' p =>
    obtain ⟨m', e⟩ := p
    rw [hres] at hseize
    simp only [mutexNext, hres]
    cases hseize with
    | taken hl =>
      have hk := (h₀.setRetCode t mutexSuccessful).addRes t 1
      refine h.moved (t := t) hnone hk (setMutex_attrs s w _ rfl)
        (fun w' u hw => h.lock_set w _ (fun _ _ => rfl) w' u (.inl hw)) rfl ?_ (fun u hu => Function.update_of_ne hu ..)
        (fun u _ => ?_) (fun _ _ _ => Iff.rfl)
      · show ((Kernel.addRes _ t 1).thr t).curState = _
        rw [addRes_state, setRetCode_state]
        exact hr
      · exact (addRes_state _ _ _ u).trans (setRetCode_state _ _ _ u)
    | answered hl status nestCnt =>
      have hk := h₀.setRetCode t status
      refine h.moved (t := t) hnone hk (setMutex_attrs s w _ rfl)
        (fun w' u hw => h.lock_set w { s.mutex w with nestCnt := nestCnt } (fun _ _ => hl) w' u (.inl hw)) rfl ?_ (fun u hu => Function.update_of_ne hu ..)
        (fun u _ => setRetCode_state _ _ _ u) (fun _ _ _ => Iff.rfl)
      exact (setRetCode_state _ _ _ t).trans hr
    | waits hl hh =>
      have h₁ := h₀.setRetCode t mutexSuccessful
      have hk := h₁.enter w call.timeout rfl ((setRetCode_state _ _ _ t).trans hr)
      have hstate : ∀ u, (((lwpThreadqueueCsenter (Kernel.setRetCode { s.kernel with executing := t } t mutexSuccessful) w).setThr t
          (fun l => { l with wait := { l.wait with queue := some w } })).thr u).curState = (s.kernel.thr u).curState := fun u => by
        by_cases hu : u = t
        · subst hu; rw [setThr_thr_self]; exact setRetCode_state _ _ _ u
        · rw [setThr_thr_ne _ _ _ hu]; exact setRetCode_state _ _ _ u
      refine ⟨⟨hk, fun w' => ?_, fun e he => ?_, fun w' hp => (by cases hp), fun w' u hb => ?_, fun u => ?_⟩, fun w' u hb => ?_⟩
      · rw [show (_ : MutexState T W).mutex w' = s.setMutex w (s.mutex w) w' from rfl, MutexState.setMutex, Function.update_eq_self]
        exact h.attrs w'
      · cases he
        rfl
      · rcases hb with hb | ⟨e, he, rfl, -⟩
        · exact h.lock_set w _ (fun _ _ => hl) w' u (.inl hb)
        · cases he
          rw [show (_ : MutexState T W).mutex w = s.setMutex w (s.mutex w) w from rfl, MutexState.setMutex, Function.update_self]
          exact hl
      · by_cases hu : u = t
        · subst hu
          refine ⟨fun w' hw' => absurd hr (h.wait.tq.not_ready hw'), fun e he _ => ?_, fun w' _ hn => absurd rfl hn,
            fun hnr => absurd ((hstate u).trans hr) hnr⟩
          cases he
          exact Function.update_self ..
        · refine (h.stands u).congr (Function.update_of_ne hu ..) (hstate u) (fun _ => Iff.rfl) ?_ fun e' he' ht => ?_
          · refine iff_of_false (fun hin => hu ?_) (not_entering_of_idle hnone u)
            cases hin
            rfl
          · cases he'
            exact absurd ht.symm hu
      · rcases hb with hb | ⟨e, he, -⟩
        · exact .inl (.inl hb)
        · cases he

theorem HandInv.inherit (h : HandInv s Qs) (hph : s.phase = .inheriting e) (hkeep : keepsBlocked s (.mutex .inherit)) :
    ∃ Qs', HandInv (mutexNext s .inherit) Qs' ∧ NoneNew s (mutexNext s .inherit) Qs Qs' := by
  have henq : s.phase.enq = some e := by rw [hph]; rfl
  obtain ⟨r, ha⟩ := h.attrs e.queue
  have hmode : (s.mutex e.queue).attrs.mode = .inheritprio := by rw [ha]; rfl
  have hw := h.wait
  rw [henq] at hw
  have hok := hw.tq.phase e rfl
  obtain ⟨Qs', hw', hwaits, hstate⟩ : ∃ Qs', WaitOrder (lwpMutexInherit s.kernel (s.mutex e.queue)).1 Qs' (some e) ∧
      (∀ w u, Waits Qs' w u ↔ Waits Qs w u) ∧
      ∀ v, ((lwpMutexInherit s.kernel (s.mutex e.queue)).1.thr v).curState = (s.kernel.thr v).curState := by
    unfold lwpMutexInherit
    rw [hmode]
    cases hh : (s.mutex e.queue).holder with
    | none => exact ⟨Qs, hw, fun _ _ => Iff.rfl, fun _ => rfl⟩
    | some u =>
      dsimp only
      split
      · rename_i hgt
        rw [hok.exec] at hgt
        -- the boost takes effect, so the holder is not blocked
        have hnb : ¬ s.Blocked u := (hkeep e (by rw [hph]; rfl) u hh).resolve_right (not_le.2 hgt)
        have hno : ∀ w, ¬ Waits Qs w u := fun w hwu => hnb ((h.blocked_iff w u).2 hwu).2
        have htr := (h.stands u).steady
        obtain ⟨Qs', h', hs'⟩ := hw.changepriority (fun w hwu => absurd hwu (hno w)) (fun e' he' _ c p hcp => by
          cases he'
          rw [h.fresh e hph] at hcp
          cases hcp) htr false
        exact ⟨Qs', h', hs'.waits, fun v => (lwpThreadChangepriority_keeps htr _ false v).1⟩
      · exact ⟨Qs, hw, fun _ _ => Iff.rfl, fun _ => rfl⟩
  simp only [mutexNext, hph]
  exact ⟨Qs', h.quiet hw' (setMutex_attrs s e.queue _ rfl) (h.lock_set e.queue _ (h.locked e.queue)) (fun e' he' => by cases he')
    (fun w hp => by cases hp) rfl hstate hwaits henq.symm⟩

theorem HandInv.enqueue (h : HandInv s Qs) (hph : s.phase = .entering e) :
    ∃ Qs', HandInv (mutexNext s .enqueue) Qs' ∧ NoneNew s (mutexNext s .enqueue) Qs Qs' := by
  have henq : s.phase.enq = some e := by rw [hph]; rfl
  obtain ⟨r, ha⟩ := h.attrs e.queue
  have hw := h.wait
  rw [henq] at hw
  obtain ⟨Qs', hw', hfr, hout⟩ := hw.enqNext
  have hcall := (h.stands e.thread).enq e henq rfl
  rw [mutexNext_enqueue hph ha]
  set k' := (enqNext s.kernel e).1
  set o := (enqNext s.kernel e).2
  clear_value k' o
  set s' : MutexState T W := { s with kernel := k', phase := (o.map MutexPhase.entering).getD .idle } with hs'
  have hpe : s'.phase.enq = o := by cases o <;> rfl
  have hwait' : WaitOrder s'.kernel Qs' s'.phase.enq := by rw [hpe]; exact hw'
  have hin : ∀ u, s'.Entering u → u = e.thread := fun u hu => by
    obtain ⟨e', he', rfl⟩ := Option.map_eq_some_iff.1 hu
    rw [hpe] at he'
    subst he'
    cases hout with
    | going _ h1 _ _ _ _ => exact h1
  -- whoever is behind a mutex now was behind it before
  have hold : ∀ w u, Bound s' Qs' w u → Behind s Qs w u := fun w u hb => by
    rcases hb with hb | ⟨e', he', rfl, rfl⟩
    · cases hout with
      | going _ _ _ _ h4 _ => exact .inl ((h4 w u).1 hb)
      | linked _ h2 _ => exact ((h2 w u).1 hb).imp id fun ⟨hq, ht⟩ => ⟨e, hph, hq.symm, ht.symm⟩
      | timedOut _ h2 _ _ => exact .inl ((h2 w u).1 hb)
      | satisfied _ h2 _ _ => exact .inl ((h2 w u).1 hb)
    · rw [hpe] at he'
      subst he'
      cases hout with
      | going _ h1 h2 _ _ _ => exact .inr ⟨e, hph, h2.symm, h1.symm⟩
  refine ⟨Qs', ⟨hwait', h.attrs, fun e' he' => ?_, fun w hp => ?_, fun w u hb => ?_, fun u => ?_⟩, fun w u hb => ?_⟩
  · cases o <;> cases he'
  · cases o <;> cases hp
  · exact h.locked w u ((hold w u hb).imp id fun ⟨e', he', hq⟩ => ⟨e', by rw [he']; rfl, hq⟩)
  · by_cases hu : u = e.thread
    · subst hu
      cases hout with
      | going e' h1 h2 h3 h4 h5 =>
        have hin' : s'.Entering e.thread := by rw [MutexState.Entering, hpe, Option.map_some, h1]
        refine ⟨fun w hwt => absurd ((h4 w _).1 hwt) ((hw.tq.phase e rfl).out w), fun e'' he'' _ => ?_,
          fun _ _ hn _ => absurd hin' hn, fun hnr => ?_⟩
        · rw [hpe] at he''
          cases he''
          rw [h2]
          exact hcall
        · have hok' := hw'.tq.phase e' rfl
          rw [← h1] at hnr ⊢
          have hpc : e'.pc ≠ .setstate := fun hp => hnr (hok'.ready hp)
          rw [show s'.kernel = k' from rfl, hok'.blocked hpc]
          exact (hw'.tq.state e'.queue).2.2.1
      | linked h1 h2 h3 =>
        have hon : Waits Qs' e.queue e.thread := (h2 _ _).2 (.inr ⟨rfl, rfl⟩)
        refine ⟨fun w hwt => ?_, fun e'' he'' => (by rw [hpe] at he''; cases he''), fun w hc _ _ => ?_, fun _ => ?_⟩
        · rw [hw'.tq.waits_unique hwt hon]
          exact hcall
        · cases hc.symm.trans hcall
          exact hon
        · rw [show s'.kernel = k' from rfl, (hw'.tq.waits _ _ hon).1]
          exact (hw'.tq.state e.queue).2.2.1
      | timedOut h1 h2 h3 h4 => exact .ready hwait'.tq h3 hpe
      | satisfied h1 h2 h3 h4 => exact .ready hwait'.tq h3 hpe
    · refine (h.stands u).congr rfl (by rw [show s'.kernel = k' from rfl, hfr.other u hu]) (fun w => ?_)
        (iff_of_false (fun hi => hu (hin u hi)) fun hi => hu ?_) fun e' he' ht => ?_
      · cases hout with
        | going _ _ _ _ h4 _ => exact h4 w u
        | linked _ h2 _ => rw [h2]; simp [hu]
        | timedOut _ h2 _ _ => exact h2 w u
        | satisfied _ h2 _ _ => exact h2 w u
      · rw [MutexState.Entering, henq] at hi
        cases hi
        rfl
      · exact absurd (hin u (by rw [MutexState.Entering, he', Option.map_some, ht])) hu
  · exact .inl (hold w u (hb.imp id fun ⟨e', he', hq⟩ => ⟨e', by rw [he']; rfl, hq⟩))

theorem HandInv.expire (h : HandInv s Qs) (ha : (s.kernel.thr t).timer = .active) :
    ∃ Qs', HandInv (mutexNext s (.expire t)) Qs' ∧ NoneNew s (mutexNext s (.expire t)) Qs Qs' := by
  obtain ⟨Qs', hw', hx⟩ := h.wait.tickle ha
  refine ⟨Qs', ?_⟩
  cases hx with
  | took w h1 h2 h3 h4 h5 =>
    refine ⟨⟨hw', h.attrs, h.fresh, h.passing, fun w' u hb => h.locked w' u (hb.imp (fun hx => ((h2 w' u).1 hx).1) id),
      fun u => ?_⟩, fun w' u hb => .inl (hb.imp (fun hx => ((h2 w' u).1 hx).1) id)⟩
    by_cases hu : u = t
    · subst hu
      refine ⟨fun w' hw'' => absurd rfl ((h2 w' u).1 hw'').2, fun e he ht => ?_, fun _ _ _ hnr => absurd h3 hnr,
        fun hnr => absurd h3 hnr⟩
      exact absurd h1 (ht ▸ (h.wait.tq.phase e he).out w)
    · refine (h.stands u).congr rfl ?_ (fun w' => by rw [h2]; simp [hu]) Iff.rfl fun e' he' ht => ⟨e', he', ht, rfl⟩
      show ((lwpWdTickle s.kernel t).thr u).curState = _
      rw [h4, setThr_thr_ne _ _ _ hu]
  | noted e h1 h2 h3 h4 h5 =>
    subst h3
    refine h.quiet hw' (fun _ => rfl) h.locked (fun _ he => he) h.passing rfl (fun u => ?_) (fun _ _ => Iff.rfl) rfl
    show ((lwpWdTickle s.kernel t).thr u).curState = _
    rw [h4]
    by_cases hu : u = t
    · subst hu; rw [setThr_thr_self]
    · rw [setThr_thr_ne _ _ _ hu]

theorem HandInv.ret (h : HandInv s Qs) (hph : s.phase = .idle) (hr : s.kernel.Ready t) :
    HandInv (mutexNext s (.ret t)) Qs ∧ NoneNew s (mutexNext s (.ret t)) Qs Qs := by
  have hnone : s.phase.enq = none := by rw [hph]; rfl
  simp only [mutexNext]
  split
  · refine h.moved (t := t) hnone ?_ (fun _ => rfl) (fun w u hw => h.locked w u (.inl hw)) hph hr (fun u hu => Function.update_of_ne hu ..) (fun _ _ => rfl)
      (fun _ _ _ => Iff.rfl)
    have hw := h.wait
    rw [hnone] at hw
    exact hw
  · exact ⟨h, fun _ _ hb => .inl hb⟩

theorem WaitOrder.dropRes (h : WaitOrder k Qs none) (hr : k.Ready t) :
    ∃ Qs', WaitOrder (k.dropRes t) Qs' none ∧ (∀ w u, Waits Qs' w u ↔ Waits Qs w u) ∧
      ∀ v, ((k.dropRes t).thr v).curState = (k.thr v).curState := by
  have h₁ := h.addRes t (-1)
  have hr₁ : (k.addRes t (-1)).Ready t := (addRes_state k t _ t).trans hr
  unfold Kernel.dropRes
  dsimp only
  split
  · obtain ⟨Qs', h', hw'⟩ := h₁.changepriority (t := t) (fun w hw => absurd hr₁ (h₁.tq.not_ready hw)) (fun e he => by cases he)
      (fun hn => absurd hr₁ hn) true
    exact ⟨Qs', h', hw'.waits, fun v =>
      (lwpThreadChangepriority_keeps (fun hn => absurd hr₁ hn) _ true v).1.trans (addRes_state k t _ v)⟩
  · exact ⟨Qs, h₁, fun _ _ => Iff.rfl, addRes_state k t _⟩

theorem HandInv.unlock (h : HandInv s Qs) (hph : s.phase = .idle) (hr : s.kernel.Ready t) (w : W) :
    ∃ Qs', HandInv (mutexNext s (.unlock t w)) Qs' ∧ NoneNew s (mutexNext s (.unlock t w)) Qs Qs' := by
  obtain ⟨r, ha⟩ := h.attrs w
  have hnone : s.phase.enq = none := by rw [hph]; rfl
  have h₀ := h.switch hph t
  have hrel := lwpMutexRelease_cases { s.kernel with executing := t } ha
  cases hres : lwpMutexRelease { s.kernel with executing := t } (s.mutex w) with
  | mk k' p =>
    obtain ⟨m', o⟩ := p
    rw [hres] at hrel
    simp only [mutexNext, hres]
    cases hrel with
    | kept nestCnt status =>
      exact ⟨Qs, h.quiet h₀ (setMutex_attrs s w _ rfl) (h.lock_set w _ (h.locked w)) (fun e he => by cases he)
        (fun w' hp => by cases hp) rfl (fun _ => rfl) (fun _ _ => Iff.rfl) hnone.symm⟩
    | given hh nestCnt =>
      obtain ⟨Qs', h', hw', hst⟩ := h₀.dropRes (t := t) hr
      refine ⟨Qs', h.quiet h' (setMutex_attrs s w _ rfl) (h.lock_set w _ (h.locked w)) (fun e he => by cases he)
        (fun w' hp => ?_) rfl hst hw' hnone.symm⟩
      cases hp
      show (s.setMutex w _ w).holder = none
      rw [MutexState.setMutex, Function.update_self]

theorem HandInv.handover (h : HandInv s Qs) (hph : s.phase = .unlocking w) :
    ∃ Qs', HandInv (mutexNext s .handover) Qs' ∧ NoneNew s (mutexNext s .handover) Qs Qs' := by
  obtain ⟨r, ha⟩ := h.attrs w
  have hnone : s.phase.enq = none := by rw [hph]; rfl
  have hw := h.wait
  rw [hnone] at hw
  obtain ⟨Qs', hw', hd, -⟩ := hw.dequeue w
  simp only [mutexNext, hph]
  refine ⟨Qs', ?_⟩
  rcases lwpMutexHandover_cases s.kernel ha w with ⟨t, ho, he⟩ | ⟨ho, he⟩
  · rw [he]
    rw [ho] at hd
    cases hd with
    | early e h1 => cases h1
    | took _ h1 h2 h3 h4 h5 =>
      refine h.moved (t := t) hnone (hw'.addRes t 1) (setMutex_attrs s w _ rfl)
        (fun w' u hw => h.lock_set w { s.mutex w with nestCnt := 1, holder := some t } (h.locked w) w' u (.inl hw)) rfl ?_
        (fun _ _ => rfl) (fun u hu => ?_) (fun w' u hu => by rw [h2]; simp [hu])
      · exact (addRes_state _ _ _ t).trans h3
      · refine (addRes_state _ _ _ u).trans ?_
        rw [h4, setThr_thr_ne _ _ _ hu]
  · rw [he]
    rw [ho] at hd
    cases hdq : lwpThreadqueueDequeue s.kernel w with
    | mk k' o =>
      rw [hdq] at hd hw'
      cases hd with
      | nobody h1 h2 h3 h4 =>
        simp only at h4
        have hempty : ∀ u, Bound s Qs w u → ({ s.mutex w with lock := .unlocked } : LwpMutex T).lock = .locked := fun u hb => by
          rcases hb with hb | ⟨e, he, -⟩
          · exact absurd hb (h1 u)
          · rw [hnone] at he; cases he
        subst h3 h4
        exact h.quiet hw' (setMutex_attrs s w _ rfl) (h.lock_set w _ hempty) (fun e he => by cases he)
          (fun w' hp => by cases hp) rfl (fun _ => rfl) (fun _ _ => Iff.rfl) hnone.symm

theorem HandInv.handover_order (h : HandInv s Qs) (hph : s.phase = .unlocking w) :
    (∀ t, ((mutexNext s .handover).mutex w).holder = some t → Waits Qs w t ∧
      ∀ u, Waits Qs w u → s.kernel.prioOf t ≤ s.kernel.prioOf u) ∧
    (((mutexNext s .handover).mutex w).holder = none → ∀ u, ¬ Waits Qs w u) := by
  obtain ⟨r, ha⟩ := h.attrs w
  have hw := h.wait
  rw [hph] at hw
  obtain ⟨Qs', hw', hd, hmin⟩ := WaitOrder.dequeue hw w
  have hmutex : (mutexNext s .handover).mutex w = (lwpMutexHandover s.kernel (s.mutex w) w).2 := by
    simp only [mutexNext, hph]
    exact Function.update_self ..
  rw [hmutex]
  rcases lwpMutexHandover_cases s.kernel ha w with ⟨t, ho, he⟩ | ⟨ho, he⟩
  · rw [he]
    rw [ho] at hd hmin
    cases hd with
    | early e h1 => cases h1
    | took _ h1 h2 h3 h4 h5 =>
      refine ⟨fun t' ht' => ?_, fun hn => by cases hn⟩
      cases ht'
      exact ⟨h1, hmin t rfl⟩
  · rw [he]
    rw [ho] at hd
    refine ⟨fun t ht' => ?_, fun _ => ?_⟩
    · cases (h.passing w hph).symm.trans ht'
    · cases hd with
      | nobody h1 h2 h3 h4 => exact h1

theorem HandInv.setPriority (h : HandInv s Qs) (hph : s.phase = .idle) {caller : T} {prio : Fin 256}
    (hkeep : keepsBlocked s (.setPriority caller t prio)) : ∃ Qs', HandInv (mutexPrioNext s (.setPriority caller t prio)) Qs' ∧
      NoneNew s (mutexPrioNext s (.setPriority caller t prio)) Qs Qs' := by
  have hnone : s.phase.enq = none := by rw [hph]; rfl
  set k₁ : Kernel T W := ({ s.kernel with executing := caller } : Kernel T W).setThr t ({ · with realPrio := ownPrio prio })
    with hk₁
  have h₁ : WaitOrder k₁ Qs none := (h.switch hph caller).setThr ⟨⟨rfl, rfl, rfl⟩, rfl, rfl, id⟩
  have hself : k₁.thr t = { s.kernel.thr t with realPrio := ownPrio prio } := by rw [hk₁, setThr_thr_self]
  have hstate : ∀ u, (k₁.thr u).curState = (s.kernel.thr u).curState := fun u => by
    by_cases hu : u = t
    · subst hu; rw [hself]
    · rw [hk₁, setThr_thr_ne _ _ _ hu]
  have hnext : mutexPrioNext s (.setPriority caller t prio) = { s with
      kernel := if (k₁.thr t).resCnt = 0 ∨ (k₁.thr t).curPrio > (k₁.thr t).realPrio then
        lwpThreadChangepriority k₁ t (k₁.thr t).realPrio true else k₁ } := rfl
  have htr : ¬ k₁.Ready t → lwpClearstate (k₁.thr t).curState stTransient = (k₁.thr t).curState := fun hnr => by
    rw [hstate]
    exact (h.stands t).steady fun hr => hnr ((hstate t).trans hr)
  rw [hnext]
  split
  · rename_i hc
    -- a blocked thread has this priority already
    have hsame : ∀ w, Waits Qs w t → k₁.prioOf t = (k₁.thr t).realPrio := fun w hw => by
      have hb := ((h.blocked_iff w t).2 hw).2
      rw [Kernel.prioOf, hself]
      rw [hself] at hc
      rcases hkeep with hk | hk | ⟨hk, hle⟩
      · exact absurd hb hk
      · exact hk
      · exact absurd hc (not_or.2 ⟨hk, not_lt.2 hle⟩)
    obtain ⟨Qs', h', hs'⟩ := h₁.changepriority hsame (fun e he => by cases he) htr true
    refine ⟨Qs', h.quiet ?_ (fun _ => rfl) h.locked (fun e he => he) h.passing rfl
      (fun v => (lwpThreadChangepriority_keeps htr _ true v).1.trans (hstate v)) hs'.waits rfl⟩
    rw [hnone]
    exact h'
  · refine ⟨Qs, h.quiet ?_ (fun _ => rfl) h.locked (fun e he => he) h.passing rfl hstate (fun _ _ => Iff.rfl) rfl⟩
    rw [hnone]
    exact h₁

/-! ## Every run -/

theorem mutexPrioNext_hand (h : HandInv s Qs) {e : MutexPrioEvent T W} (hg : mutexPrioGuard s e) (hkeep : keepsBlocked s e) :
    ∃ Qs', HandInv (mutexPrioNext s e) Qs' ∧ NoneNew s (mutexPrioNext s e) Qs Qs' := by
  cases e with
  | setPriority caller t prio => exact h.setPriority hg.1 hkeep
  | mutex e =>
    cases e with
    | lock t w call => exact ⟨Qs, h.lock hg.1 hg.2.1 w call⟩
    | inherit => obtain ⟨e, he⟩ := hg; exact h.inherit he hkeep
    | enqueue => obtain ⟨e, he⟩ := hg; exact h.enqueue he
    | ret t => exact ⟨Qs, h.ret hg.1 hg.2.1⟩
    | unlock t w => exact h.unlock hg.1 hg.2.1 w
    | handover => obtain ⟨w, hw⟩ := hg; exact h.handover hw
    | expire t => exact h.expire hg

/-- No thread is in the middle of a change of priority. -/
def SettledThreads (k : Kernel T W) : Prop := ∀ t, lwpClearstate (k.thr t).curState stTransient = (k.thr t).curState

theorem mutexStart_state (ws : List W) (useRecursive : W → Bool) : ∀ (k : Kernel T W) (t : T),
    ((mutexStart k ws useRecursive).kernel.thr t).curState = (k.thr t).curState := by
  unfold mutexStart
  induction ws with
  | nil => exact fun _ _ => rfl
  | cons w ws ih => exact fun k t => ih _ t

theorem HandInv.start (hk : SchedState idle k) (ht : ∀ t, (k.thr t).timer ≠ .active) (hst : SettledThreads k) (hws : ∀ w, w ∈ ws)
    (useRecursive : W → Bool) : ∃ Qs, HandInv (mutexStart k ws useRecursive) Qs := by
  obtain ⟨Qs, h⟩ := @MutexInv.start _ _ _ _ useRecursive _ _ _ hk ht hws
  have hno : ∀ w t, ¬ Waits Qs w t := fun w t hw => by
    obtain ⟨hc, -⟩ := h.waiting_call hw
    cases hc
  have hnil : ∀ w i, held Qs (.wait w i) = [] := fun w i =>
    List.eq_nil_iff_forall_not_mem.2 fun t hm => hno w t ⟨i, .inl hm⟩
  have horder : ∀ w, ∃ waiting, PrioInv (mutexStart k ws useRecursive).kernel Qs w waiting := fun w => by
    refine ⟨[], List.nodup_nil, fun i l hl => ?_, fun i => ?_, fun i l hl => ?_, fun i l hl => ?_, fun t ht => by cases ht⟩
    · rw [hnil] at hl; cases hl
    · rw [hnil]; exact List.Pairwise.nil
    · rw [hnil] at hl; cases hl
    · rw [hnil] at hl; cases hl
  refine ⟨Qs, ⟨h.tq, fun w => (h.fields w).2, horder, fun e c p he => (by cases he)⟩, fun w => ⟨_, h.attrs w⟩,
    fun e he => (by cases he), fun w hp => (by cases hp), fun w t hb => ?_,
    fun t => ⟨fun w hw => absurd hw (hno w t), fun e he => (by cases he), fun w hc => (by cases hc), fun _ => ?_⟩⟩
  · rcases hb with hb | ⟨e, he, -⟩
    · exact absurd hb (hno w t)
    · cases he
  · rw [mutexStart_state]
    exact hst t

theorem HandInv.of_run (hk : SchedState idle k) (ht : ∀ t, (k.thr t).timer ≠ .active) (hst : SettledThreads k) (hws : ∀ w, w ∈ ws)
    {useRecursive : W → Bool} {es : List (MutexPrioEvent T W)}
    (hes : (mutexPrioSystem.restrict keepsBlocked).Legal (mutexStart k ws useRecursive) es)
    (hs : s = mutexPrioSystem.run (mutexStart k ws useRecursive) es) : ∃ Qs, HandInv s Qs := by
  have hrun : s = (mutexPrioSystem.restrict keepsBlocked).run (mutexStart k ws useRecursive) es := hs
  rw [hrun]
  refine System.Legal.invariant (I := fun s => ∃ Qs, HandInv s Qs) (fun s e ⟨Qs, h⟩ hg => ?_)
    (HandInv.start hk ht hst hws useRecursive) hes
  obtain ⟨Qs', h', -⟩ := mutexPrioNext_hand h hg.1 hg.2
  exact ⟨Qs', h'⟩

/-- **A mutex passes to the most urgent thread.**  In every run of lock, timed lock, try lock and unlock calls, of
`LWP_SetThreadPriority` calls and of expiring timers in which no step changes the `cur_prio` of a thread that is blocked on a
mutex: an unlock that gives its mutex away gives it to a thread blocked on it whose `cur_prio` is then numerically smallest
among all the threads blocked on it, and it leaves the mutex without a holder only when nobody is blocked on it. -/
theorem mutex_handover_order (k : Kernel T W) (idle : T) (ws : List W) (useRecursive : W → Bool)
    (es : List (MutexPrioEvent T W)) (s : MutexState T W) (hk : SchedState idle k) (ht : ∀ t, (k.thr t).timer ≠ .active)
    (hst : SettledThreads k) (hws : ∀ w, w ∈ ws)
    (hes : (mutexPrioSystem.restrict keepsBlocked).Legal (mutexStart k ws useRecursive) es)
    (hs : s = mutexPrioSystem.run (mutexStart k ws useRecursive) es) (w : W) (hph : s.phase = .unlocking w) :
    (∀ t, ((mutexNext s .handover).mutex w).holder = some t → (s.calls t = some w ∧ s.Blocked t) ∧
      ∀ u, s.calls u = some w → s.Blocked u → (s.kernel.thr t).curPrio ≤ (s.kernel.thr u).curPrio) ∧
    (((mutexNext s .handover).mutex w).holder = none → ∀ u, s.calls u = some w → ¬ s.Blocked u) := by
  obtain ⟨Qs, h⟩ := HandInv.of_run hk ht hst hws hes hs
  obtain ⟨hsome, hnone⟩ := h.handover_order hph
  refine ⟨fun t ht' => ?_, fun hn u hc hb => hnone hn u ((h.blocked_iff w u).1 ⟨hc, hb⟩)⟩
  obtain ⟨hwt, hmin⟩ := hsome t ht'
  exact ⟨(h.blocked_iff w t).2 hwt, fun u hc hb => hmin u ((h.blocked_iff w u).1 ⟨hc, hb⟩)⟩

/-- Four started threads: 1 holds the mutex, 2 and 3 may wait for it. -/
def orderSampleKernel : Kernel (Fin 4) Bool :=
  (schedSystem Bool (0 : Fin 4)).run (lwpSysinit (threadsInit (zeroKernel (Fin 4) Bool 0)
    (fun t => if t = 1 then 120 else if t = 2 then 100 else 110) (fun _ => true)) 0) [.ready 1, .ready 2, .ready 3]

theorem orderSampleKernel_sched : SchedState 0 orderSampleKernel := by
  refine System.Legal.invariant (I := SchedState 0) (fun _ _ hs he => schedNext_state hs he) (lwpSysinit_state _ _ _ _) ?_
  decide +kernel

/-- A thread blocks on a mutex. -/
def blocksOn (t : Fin 4) (w : Bool) : List (MutexPrioEvent (Fin 4) Bool) :=
  [.mutex (.lock t w .lock), .mutex .inherit, .mutex .enqueue, .mutex .enqueue, .mutex .enqueue]

/-- 1 takes the mutex, 2 and 3 wait for it, and 1 begins to unlock. -/
def orderSample : List (MutexPrioEvent (Fin 4) Bool) :=
  [.mutex (.lock 1 true .lock), .mutex (.ret 1)] ++ blocksOn 3 true ++ blocksOn 2 true ++
    [.mutex .enqueue, .setPriority 1 1 200, .mutex (.unlock 1 true)]

theorem mutex_handover_order_sample :
    (mutexPrioSystem.restrict keepsBlocked).Legal (mutexStart orderSampleKernel [true, false] id) orderSample ∧
      ((mutexNext (mutexPrioSystem.run (mutexStart orderSampleKernel [true, false] id) orderSample) .handover).mutex true).holder =
        some 2 ∧
      ((mutexPrioSystem.run (mutexStart orderSampleKernel [true, false] id) orderSample).kernel.thr 2).curPrio ≤
        ((mutexPrioSystem.run (mutexStart orderSampleKernel [true, false] id) orderSample).kernel.thr 3).curPrio := by
  have hl : (mutexPrioSystem.restrict keepsBlocked).Legal (mutexStart orderSampleKernel [true, false] id) orderSample := by
    decide +kernel
  have hh : ((mutexNext (mutexPrioSystem.run (mutexStart orderSampleKernel [true, false] id) orderSample) .handover).mutex
      true).holder = some 2 := by decide +kernel
  obtain ⟨hmin, -⟩ := mutex_handover_order orderSampleKernel 0 [true, false] id orderSample _ orderSampleKernel_sched
    (by decide +kernel) (by unfold SettledThreads; decide +kernel) (by decide) hl rfl true (by decide +kernel)
  exact ⟨hl, hh, (hmin 2 hh).2 3 (by decide +kernel) (by decide +kernel)⟩

/-- The same, but the waiting thread 3 is made the most urgent of all before the unlock. -/
def raisedSample : List (MutexPrioEvent (Fin 4) Bool) :=
  [.mutex (.lock 1 true .lock), .mutex (.ret 1)] ++ blocksOn 3 true ++ blocksOn 2 true ++
    [.mutex .enqueue, .setPriority 1 3 178, .mutex (.unlock 1 true)]

/-- **A blocked thread that is made more urgent keeps its place**: the mutex passes to thread 2, of priority 100, while
thread 3 is blocked on it with priority 50. -/
theorem mutex_handover_misses : ∃ s : MutexState (Fin 4) Bool,
    mutexPrioSystem.Legal (mutexStart orderSampleKernel [true, false] id) raisedSample ∧
      s = mutexPrioSystem.run (mutexStart orderSampleKernel [true, false] id) raisedSample ∧ s.phase = .unlocking true ∧
      ((mutexNext s .handover).mutex true).holder = some 2 ∧ s.calls 3 = some true ∧ s.Blocked 3 ∧
      (s.kernel.thr 2).curPrio = 100 ∧ (s.kernel.thr 3).curPrio = 50 := by
  obtain ⟨s, hs⟩ : ∃ s, s = mutexPrioSystem.run (mutexStart orderSampleKernel [true, false] id) raisedSample := ⟨_, rfl⟩
  refine ⟨s, by decide +kernel, hs, ?_⟩
  rw [hs]
  decide +kernel

end Libogc
