import Libogc.Lwp.Mutex
/-!
# MutexRuns — a mutex has one owner

`locks w t` is how often thread `t` has mutex `w`: the lock calls that returned less the unlock calls, and a lock call that
succeeded but did not return yet.  In every state the holder is the one thread for which it is not zero, and `nest_cnt` is
its value (`MutexOwner`), but for the moment in which an unlock looks for the next owner.
-/
namespace Libogc

open Links Runs

set_option linter.unusedSectionVars false

variable {T W : Type} [DecidableEq T] [DecidableEq W]

def MutexState.retCode (s : MutexState T W) (t : T) : BitVec 32 := (s.kernel.thr t).wait.retCode
def MutexState.Entering (s : MutexState T W) (t : T) : Prop := s.phase.enq.map (·.thread) = some t

/-- A lock call that succeeded and did not return yet. -/
def MutexState.Pending (s : MutexState T W) (w : W) (t : T) : Prop :=
  s.calls t = some w ∧ ¬ s.Entering t ∧ s.kernel.Ready t ∧ mutexErrno (s.retCode t) = .ok

instance (s : MutexState T W) (t : T) : Decidable (s.Entering t) := inferInstanceAs (Decidable (_ = _))
instance (s : MutexState T W) (w : W) (t : T) : Decidable (s.Pending w t) := inferInstanceAs (Decidable (_ ∧ _ ∧ _ ∧ _))

/-- How often a thread has a mutex. -/
def MutexState.locks (s : MutexState T W) (w : W) (t : T) : Nat := s.depth w t + if s.Pending w t then 1 else 0

/-- Where a thread stands. -/
inductive MutexThread (s : MutexState T W) (Qs : QId T W → Option (List T)) (t : T) : Prop
  | outside (call : s.calls t = none) (out : ∀ w, ¬ Waits Qs w t) (notIn : ¬ s.Entering t)
  | entering (e : Enq T W) (phase : s.phase.enq = some e) (thread : e.thread = t) (call : s.calls t = some e.queue)
    (ret : s.retCode t = mutexSuccessful)
  | waits (w : W) (call : s.calls t = some w) (on : Waits Qs w t) (ret : s.retCode t = mutexSuccessful)
  | finished (w : W) (call : s.calls t = some w) (ready : s.kernel.Ready t) (notIn : ¬ s.Entering t)

/-- **Who owns a mutex.** -/
inductive MutexOwner (s : MutexState T W) (w : W) : Prop
  | free (lock : (s.mutex w).lock = .unlocked) (holder : (s.mutex w).holder = none) (nest : (s.mutex w).nestCnt = 0)
    (phase : s.phase ≠ .unlocking w) (none : ∀ u, s.locks w u = 0)
  | passing (lock : (s.mutex w).lock = .locked) (holder : (s.mutex w).holder = none) (nest : (s.mutex w).nestCnt = 0)
    (phase : s.phase = .unlocking w) (none : ∀ u, s.locks w u = 0)
  | held (t : T) (lock : (s.mutex w).lock = .locked) (holder : (s.mutex w).holder = some t)
    (nest : (s.mutex w).nestCnt.toNat = s.locks w t) (phase : s.phase ≠ .unlocking w) (pos : 0 < s.locks w t)
    (others : ∀ u, u ≠ t → s.locks w u = 0)

/-- The fields of a mutex's queue that stay. -/
def mutexQueue (q : ThrQueue) : Prop := q.timeoutStatus = mutexTimeout ∧ q.mode = .priority

/-- **What every run keeps.** -/
structure MutexInv (rec : W → Bool) (s : MutexState T W) (Qs : QId T W → Option (List T)) : Prop where
  tq : TqInv s.kernel Qs s.phase.enq
  attrs : ∀ w, (s.mutex w).attrs = mutexAttr (rec w)
  fields : ∀ w, mutexQueue (s.kernel.tq w)
  sync : ∀ e, s.phase.enq = some e → (s.kernel.tq e.queue).syncState ≠ .satisfied
  fresh : ∀ e, s.phase = .inheriting e → e.pc = .setstate
  locked : ∀ w t, Waits Qs w t ∨ (∃ e, s.phase.enq = some e ∧ e.queue = w) → (s.mutex w).lock = .locked
  notOwner : ∀ e, s.phase.enq = some e → (s.mutex e.queue).holder ≠ some e.thread
  threads : ∀ t, MutexThread s Qs t
  owner : ∀ w, MutexOwner s w
  single : ∀ w, rec w = false → ∀ t, s.locks w t ≤ 1
  awake : ∀ w t, 0 < s.depth w t → s.calls t = none → s.kernel.Ready t

variable {rec : W → Bool} {s s' : MutexState T W} {Qs Qs' : QId T W → Option (List T)}

/-! ## Data that did not change -/

variable {w : W} {t : T}

theorem locks_eq_depth (hp : ¬ s.Pending w t) : s.locks w t = s.depth w t := by
  unfold MutexState.locks
  rw [if_neg hp]
  rfl

theorem locks_of_pending (hp : s.Pending w t) : s.locks w t = s.depth w t + 1 := by
  unfold MutexState.locks
  rw [if_pos hp]

theorem locks_congr (hdepth : s'.depth w t = s.depth w t) (hcall : s'.calls t = s.calls t) (hent : s'.Entering t ↔ s.Entering t)
    (hready : s'.kernel.Ready t ↔ s.kernel.Ready t) (hret : s'.retCode t = s.retCode t) : s'.locks w t = s.locks w t := by
  have hp : s'.Pending w t ↔ s.Pending w t := by
    unfold MutexState.Pending
    rw [hcall, hent, hready, hret]
  by_cases hps : s.Pending w t
  · rw [locks_of_pending hps, locks_of_pending (hp.2 hps), hdepth]
  · rw [locks_eq_depth hps, locks_eq_depth (mt hp.1 hps), hdepth]

theorem MutexThread.congr (h : MutexThread s Qs t) (hready : s'.kernel.Ready t ↔ s.kernel.Ready t)
    (hret : s'.retCode t = s.retCode t) (hcall : s'.calls t = s.calls t) (hwait : ∀ w, Waits Qs' w t ↔ Waits Qs w t)
    (hent : ¬ s.Entering t) (hent' : ¬ s'.Entering t) : MutexThread s' Qs' t := by
  cases h with
  | outside h1 h2 h3 => exact .outside (hcall.trans h1) (fun w => mt (hwait w).1 (h2 w)) hent'
  | entering e h1 h2 h3 h4 => exact absurd (by simp [MutexState.Entering, h1, h2]) hent
  | waits w h1 h2 h3 => exact .waits w (hcall.trans h1) ((hwait w).2 h2) (hret.trans h3)
  | finished w h1 h2 h3 => exact .finished w (hcall.trans h1) (hready.2 h2) hent'

theorem MutexOwner.congr (h : MutexOwner s w)
    (hm : (s'.mutex w).lock = (s.mutex w).lock ∧ (s'.mutex w).holder = (s.mutex w).holder ∧ (s'.mutex w).nestCnt = (s.mutex w).nestCnt)
    (hph : s'.phase = .unlocking w ↔ s.phase = .unlocking w) (hl : ∀ u, s'.locks w u = s.locks w u) : MutexOwner s' w := by
  obtain ⟨m1, m2, m3⟩ := hm
  cases h with
  | free h1 h2 h3 h4 h5 => exact .free (m1.trans h1) (m2.trans h2) (m3.trans h3) (mt hph.1 h4) (fun u => by rw [hl, h5])
  | passing h1 h2 h3 h4 h5 =>
    exact .passing (m1.trans h1) (m2.trans h2) (m3.trans h3) (hph.2 h4) (fun u => by rw [hl, h5])
  | held t h1 h2 h3 h4 h5 h6 =>
    exact .held t (m1.trans h1) (m2.trans h2) (by rw [m3, hl]; exact h3) (mt hph.1 h4) (by rw [hl]; exact h5)
      (fun u hu => by rw [hl, h6 u hu])

/-! ## Lock calls that begin and end -/

theorem MutexInv.switch (h : MutexInv rec s Qs) (hph : s.phase = .idle) (t : T) : TqInv { s.kernel with executing := t } Qs none := by
  have htq := h.tq
  rw [hph] at htq
  exact TqInv.switch htq t

theorem not_entering_of_idle (hph : s.phase.enq = none) (t : T) : ¬ s.Entering t := by
  rw [MutexState.Entering, hph]
  simp

theorem MutexInv.doneAtOnce (h : MutexInv rec s Qs) (hph : s.phase = .idle) (hr : s.kernel.Ready t) (hc : s.calls t = none)
    (k' : Kernel T W) (mutex : LwpMutex T) (htq : TqInv k' Qs none) (hkq : k'.tq = s.kernel.tq)
    (hstate : ∀ u, (k'.thr u).curState = (s.kernel.thr u).curState) (hother : ∀ u, u ≠ t → k'.thr u = s.kernel.thr u)
    (hattrs : mutex.attrs = mutexAttr (rec w)) (hlock : mutex.lock = .locked)
    (hs' : s' = { s with kernel := k', mutex := s.setMutex w mutex, phase := .idle, calls := Function.update s.calls t (some w) })
    (howner : (∀ u, u ≠ t → s'.locks w u = s.locks w u) → s'.locks w t = s.locks w t + (if mutexErrno (k'.thr t).wait.retCode = .ok then 1 else 0) → MutexOwner s' w ∧ (rec w = false → s'.locks w t ≤ 1)) :
    MutexInv rec s' Qs := by
  have hnone : s.phase.enq = none := by rw [hph]; rfl
  have hent := not_entering_of_idle hnone
  have hidle : s'.phase = .idle := by rw [hs']
  have hnone' : s'.phase.enq = none := by rw [hidle]; rfl
  have hent' : ∀ u, ¬ s'.Entering u := not_entering_of_idle hnone'
  have hcallt : s'.calls t = some w := by rw [hs']; exact Function.update_self ..
  have hcall : ∀ u, u ≠ t → s'.calls u = s.calls u := fun u hu => by rw [hs']; exact Function.update_of_ne hu ..
  have hready : ∀ u, s'.kernel.Ready u ↔ s.kernel.Ready u := fun u => by rw [hs', Kernel.Ready, hstate]; rfl
  have hret : ∀ u, u ≠ t → s'.retCode u = s.retCode u := fun u hu => by
    rw [hs', MutexState.retCode, hother u hu]
    rfl
  have hlocks : ∀ w' u, u ≠ t → s'.locks w' u = s.locks w' u := fun w' u hu =>
    locks_congr (by rw [hs']) (hcall u hu) (iff_of_false (hent' u) (hent u)) (hready u) (hret u hu)
  have hnp : ∀ w', ¬ s.Pending w' t := fun w' hp => by rw [MutexState.Pending, hc] at hp; cases hp.1
  have hlt : s'.locks w t = s.locks w t + (if mutexErrno (k'.thr t).wait.retCode = .ok then 1 else 0) := by
    rw [locks_eq_depth (hnp w)]
    have hp : s'.Pending w t ↔ mutexErrno (k'.thr t).wait.retCode = .ok := by
      have hrt : s'.retCode t = (k'.thr t).wait.retCode := by rw [hs']; rfl
      unfold MutexState.Pending
      rw [hrt]
      exact ⟨fun hp => hp.2.2.2, fun hp => ⟨hcallt, hent' t, (hready t).2 hr, hp⟩⟩
    by_cases hok : mutexErrno (k'.thr t).wait.retCode = .ok
    · rw [if_pos hok, locks_of_pending (hp.2 hok), hs']
    · rw [if_neg hok, locks_eq_depth (mt hp.1 hok), hs']
      rfl
  have hlt' : ∀ w', w' ≠ w → s'.locks w' t = s.locks w' t := fun w' hw' => by
    have hp : ¬ s'.Pending w' t := fun hp => by
      rw [MutexState.Pending, hcallt] at hp
      exact hw' (Option.some.inj hp.1).symm
    rw [locks_eq_depth (hnp w'), locks_eq_depth hp, hs']
  obtain ⟨how, hsing⟩ := howner (hlocks w) hlt
  have hmw : s'.mutex w = mutex := by rw [hs']; exact Function.update_self ..
  have hmo : ∀ w', w' ≠ w → s'.mutex w' = s.mutex w' := fun w' hw' => by rw [hs']; exact Function.update_of_ne hw' ..
  refine ⟨by rw [hs']; exact htq, fun w' => ?_, fun w' => by rw [hs']; simp only [hkq]; exact h.fields w',
    fun e he => absurd (hnone'.symm.trans he) (by simp), fun e he => absurd (hidle.symm.trans he) (by simp),
    fun w' u hw' => ?_, fun e he => absurd (hnone'.symm.trans he) (by simp), fun u => ?_, fun w' => ?_,
    fun w' hrec u => ?_, fun w' u hd hcu => ?_⟩
  · by_cases hw : w' = w
    · subst hw; rw [hmw]; exact hattrs
    · rw [hmo w' hw]; exact h.attrs w'
  · by_cases hw : w' = w
    · subst hw; rw [hmw]; exact hlock
    · rw [hmo w' hw]
      exact h.locked w' u (hw'.imp id fun hen => hen.elim fun e he => absurd (hnone'.symm.trans he.1) (by simp))
  · by_cases hu : u = t
    · subst hu; exact .finished w hcallt ((hready u).2 hr) (hent' u)
    · exact (h.threads u).congr (hready u) (hret u hu) (hcall u hu) (fun _ => Iff.rfl) (hent u) (hent' u)
  · by_cases hw : w' = w
    · subst hw; exact how
    · refine (h.owner w').congr (by rw [hmo w' hw]; exact ⟨rfl, rfl, rfl⟩) (by rw [hidle, hph]) (fun u => ?_)
      by_cases hu : u = t
      · subst hu; exact hlt' w' hw
      · exact hlocks w' u hu
  · by_cases hw : w' = w
    · subst hw
      by_cases hu : u = t
      · subst hu; exact hsing hrec
      · rw [hlocks w' u hu]; exact h.single w' hrec u
    · by_cases hu : u = t
      · subst hu; rw [hlt' w' hw]; exact h.single w' hrec u
      · rw [hlocks w' u hu]; exact h.single w' hrec u
  · have hu : u ≠ t := fun e => by rw [e, hcallt] at hcu; cases hcu
    rw [hs'] at hd
    exact (hready u).2 (h.awake w' u hd ((hcall u hu).symm.trans hcu))

/-- **A lock call that waits** goes on its way into the queue of a mutex that another thread holds. -/
theorem MutexInv.enter (h : MutexInv rec s Qs) (hph : s.phase = .idle) (hc : s.calls t = none) (hlock : (s.mutex w).lock = .locked)
    (hholder : (s.mutex w).holder ≠ some t) {k' : Kernel T W} {timeout : Bool} (htq : TqInv k' Qs (some ⟨t, w, timeout, .setstate⟩))
    (hkq : ∀ w', mutexQueue (s.kernel.tq w') → mutexQueue (k'.tq w')) (hsync : (k'.tq w).syncState ≠ .satisfied)
    (hstate : ∀ u, (k'.thr u).curState = (s.kernel.thr u).curState) (hother : ∀ u, u ≠ t → k'.thr u = s.kernel.thr u)
    (hret : (k'.thr t).wait.retCode = mutexSuccessful)
    (hs' : s' = { s with kernel := k', phase := .inheriting ⟨t, w, timeout, .setstate⟩, calls := Function.update s.calls t (some w) }) :
    MutexInv rec s' Qs := by
  have hnone : s.phase.enq = none := by rw [hph]; rfl
  have hent := not_entering_of_idle hnone
  have hphase : s'.phase = .inheriting ⟨t, w, timeout, .setstate⟩ := by rw [hs']
  have henq : s'.phase.enq = some ⟨t, w, timeout, .setstate⟩ := by rw [hphase]; rfl
  have hent' : ∀ u, s'.Entering u ↔ u = t := fun u => by
    rw [MutexState.Entering, henq]
    simp [eq_comm]
  have hcallt : s'.calls t = some w := by rw [hs']; exact Function.update_self ..
  have hcall : ∀ u, u ≠ t → s'.calls u = s.calls u := fun u hu => by rw [hs']; exact Function.update_of_ne hu ..
  have hready : ∀ u, s'.kernel.Ready u ↔ s.kernel.Ready u := fun u => by rw [hs', Kernel.Ready, hstate]; rfl
  have hretu : ∀ u, u ≠ t → s'.retCode u = s.retCode u := fun u hu => by
    rw [hs', MutexState.retCode, hother u hu]
    rfl
  have hlocks : ∀ w' u, s'.locks w' u = s.locks w' u := fun w' u => by
    by_cases hu : u = t
    · subst hu
      have h1 : ¬ s.Pending w' u := fun hp => by rw [MutexState.Pending, hc] at hp; cases hp.1
      have h2 : ¬ s'.Pending w' u := fun hp => hp.2.1 ((hent' u).2 rfl)
      rw [locks_eq_depth h1, locks_eq_depth h2, hs']
    · exact locks_congr (by rw [hs']) (hcall u hu) (iff_of_false (mt (hent' u).1 hu) (hent u)) (hready u) (hretu u hu)
  have hmutex : s'.mutex = s.mutex := by rw [hs']
  refine ⟨by rw [henq, hs']; exact htq, fun w' => by rw [hmutex]; exact h.attrs w',
    fun w' => by rw [hs']; exact hkq w' (h.fields w'), fun e he => ?_, fun e he => ?_, fun w' u hw' => ?_,
    fun e he => ?_, fun u => ?_, fun w' => (h.owner w').congr (by rw [hmutex]; exact ⟨rfl, rfl, rfl⟩) (by rw [hphase, hph]; simp) (hlocks w'),
    fun w' hrec u => by rw [hlocks]; exact h.single w' hrec u, fun w' u hd hcu => ?_⟩
  rotate_right
  · have hu : u ≠ t := fun e => by rw [e, hcallt] at hcu; cases hcu
    rw [hs'] at hd
    exact (hready u).2 (h.awake w' u hd ((hcall u hu).symm.trans hcu))
  · cases henq.symm.trans he
    rw [hs']
    exact hsync
  · cases hphase.symm.trans he
    rfl
  · rw [hmutex]
    rcases hw' with hw' | ⟨e, he, rfl⟩
    · exact h.locked w' u (.inl hw')
    · cases henq.symm.trans he
      exact hlock
  · cases henq.symm.trans he
    rw [hmutex]
    exact hholder
  · by_cases hu : u = t
    · subst hu
      refine .entering _ henq rfl hcallt ?_
      rw [hs']
      exact hret
    · exact (h.threads u).congr (hready u) (hretu u hu) (hcall u hu) (fun _ => Iff.rfl) (hent u) (mt (hent' u).1 hu)

theorem MutexCall.errno_waitStatus (call : MutexCall) (h : call.waitStatus ≠ 0) : mutexErrno call.waitStatus ≠ .ok := by
  revert h
  cases call with
  | lock => decide
  | timedLock due => cases due <;> decide
  | tryLock => decide

theorem MutexInv.lock (h : MutexInv rec s Qs) (hph : s.phase = .idle) (hr : s.kernel.Ready t) (hc : s.calls t = none) (w : W)
    (call : MutexCall) (hdeep : s.depth w t + 1 < 2 ^ 32) : MutexInv rec (mutexNext s (.lock t w call)) Qs := by
  have h₀ := h.switch hph t
  set k₀ : Kernel T W := { s.kernel with executing := t } with hk₀
  have h₁ : TqInv (k₀.setRetCode t mutexSuccessful) Qs none := h₀.setThr (setRetCode_sameBlock _ _)
  set k₁ := k₀.setRetCode t mutexSuccessful with hk₁
  have hself₁ : k₁.thr t = { s.kernel.thr t with wait := { (s.kernel.thr t).wait with retCode := mutexSuccessful } } := by
    rw [hk₁, Kernel.setRetCode, setThr_thr_self]
  have hne₁ : ∀ u, u ≠ t → k₁.thr u = s.kernel.thr u := fun u hu => by rw [hk₁, Kernel.setRetCode, setThr_thr_ne _ _ _ hu]
  have hok : mutexErrno mutexSuccessful = .ok := by decide
  -- the fields of a thread that got its return code, and the kernel
  have hcode : ∀ status : BitVec 32, TqInv (k₁.setRetCode t status) Qs none ∧ (k₁.setRetCode t status).tq = s.kernel.tq ∧
      (∀ u, ((k₁.setRetCode t status).thr u).curState = (s.kernel.thr u).curState) ∧
      (∀ u, u ≠ t → (k₁.setRetCode t status).thr u = s.kernel.thr u) ∧
      ((k₁.setRetCode t status).thr t).wait.retCode = status := by
    intro status
    refine ⟨h₁.setThr (setRetCode_sameBlock _ _), rfl, fun u => ?_, fun u hu => ?_, ?_⟩
    · by_cases hu : u = t
      · subst hu; rw [Kernel.setRetCode, setThr_thr_self, hself₁]
      · rw [Kernel.setRetCode, setThr_thr_ne _ _ _ hu, hne₁ u hu]
    · rw [Kernel.setRetCode, setThr_thr_ne _ _ _ hu, hne₁ u hu]
    · rw [Kernel.setRetCode, setThr_thr_self]
  have hattr := h.attrs w
  have hmode : (s.mutex w).attrs.mode = .inheritprio := by rw [hattr]; rfl
  have hcounts : (s.mutex w).attrs.counts = true := by rw [hattr]; rfl
  have hnp : s.locks w t = s.depth w t := locks_eq_depth fun hp => by rw [MutexState.Pending, hc] at hp; cases hp.1
  cases h.owner w with
  | passing _ _ _ hp _ => rw [hph] at hp; cases hp
  | free hl hh hn _ hz =>
    have he : lwpMutexSeize k₀ (s.mutex w) w call.waitStatus call.timeout =
        (k₁.addRes t 1, { s.mutex w with lock := .locked, holder := some t, nestCnt := 1 }, none) := by
      simp [lwpMutexSeize, lwpMutexSeizeIrqTrylock, hl, hmode, hcounts, hk₁, hk₀]
    have hret : ((k₁.addRes t 1).thr t).wait.retCode = mutexSuccessful := by rw [Kernel.addRes, setThr_thr_self, hself₁]
    simp only [mutexNext, ← hk₀, he]
    refine h.doneAtOnce hph hr hc (k₁.addRes t 1) { s.mutex w with lock := .locked, holder := some t, nestCnt := 1 } (h₁.setThr ⟨⟨rfl, rfl, rfl⟩, rfl, rfl, id⟩) rfl (fun u => ?_) (fun u hu => ?_)
      hattr rfl rfl (fun hu ht => ?_)
    · by_cases hu : u = t
      · subst hu; rw [Kernel.addRes, setThr_thr_self, hself₁]
      · rw [Kernel.addRes, setThr_thr_ne _ _ _ hu, hne₁ u hu]
    · rw [Kernel.addRes, setThr_thr_ne _ _ _ hu, hne₁ u hu]
    · rw [hret, if_pos hok, hz] at ht
      refine ⟨.held t ?_ ?_ ?_ (by simp) (by omega) (fun u hut => by rw [hu u hut, hz]), fun _ => by omega⟩
      · simp [MutexState.setMutex]
      · simp [MutexState.setMutex]
      · rw [ht]
        simp [MutexState.setMutex]
  | held u hl hh hn hp hpos hoth =>
    by_cases hut : u = t
    · subst hut
      cases hrec : rec w with
      | true =>
        have hnest : (s.mutex w).attrs.nestBehavior = .acquire := by rw [hattr, hrec]; rfl
        have he : lwpMutexSeize k₀ (s.mutex w) w call.waitStatus call.timeout =
            (k₁, { s.mutex w with nestCnt := (s.mutex w).nestCnt + 1 }, none) := by
          simp [lwpMutexSeize, lwpMutexSeizeIrqTrylock, hl, hh, hnest, hk₁, hk₀]
        have hret : (k₁.thr u).wait.retCode = mutexSuccessful := by rw [hself₁]
        simp only [mutexNext, ← hk₀, he]
        refine h.doneAtOnce hph hr hc k₁ { s.mutex w with nestCnt := (s.mutex w).nestCnt + 1 } h₁ rfl (fun v => ?_) hne₁ hattr hl rfl (fun hv ht => ?_)
        · by_cases hv : v = u
          · subst hv; rw [hself₁]
          · rw [hne₁ v hv]
        · rw [hret, if_pos hok] at ht
          refine ⟨.held u ?_ ?_ ?_ (by simp) (by omega) (fun v hvu => by rw [hv v hvu, hoth v hvu]), fun hf => by
            rw [hrec] at hf; cases hf⟩
          · simpa [MutexState.setMutex] using hl
          · simpa [MutexState.setMutex] using hh
          · rw [ht, ← hn]
            simp only [MutexState.setMutex, Function.update_self]
            rw [← hn] at hnp
            bv_omega
      | false =>
        -- the holder of a mutex that is not recursive is refused
        have hnest : (s.mutex w).attrs.nestBehavior = .error := by rw [hattr, hrec]; rfl
        have he : lwpMutexSeize k₀ (s.mutex w) w call.waitStatus call.timeout =
            (k₁.setRetCode u mutexNestNotallowed, s.mutex w, none) := by
          simp [lwpMutexSeize, lwpMutexSeizeIrqTrylock, hl, hh, hnest, hk₁, hk₀]
        obtain ⟨c1, c2, c3, c4, c5⟩ := hcode mutexNestNotallowed
        simp only [mutexNext, ← hk₀, he]
        refine h.doneAtOnce hph hr hc _ (s.mutex w) c1 c2 c3 c4 hattr hl rfl (fun hv ht => ?_)
        rw [c5, if_neg (by decide), Nat.add_zero] at ht
        refine ⟨.held u ?_ ?_ ?_ (by simp) (by omega) (fun v hvu => by rw [hv v hvu, hoth v hvu]), fun hf => by
          rw [ht]; exact h.single w hf u⟩
        · simpa [MutexState.setMutex] using hl
        · simpa [MutexState.setMutex] using hh
        · rw [ht, ← hn]
          simp [MutexState.setMutex]
    · have hholder : (s.mutex w).holder ≠ some t := by rw [hh]; simpa using hut
      by_cases hws : call.waitStatus = 0
      · have he : lwpMutexSeize k₀ (s.mutex w) w call.waitStatus call.timeout =
            ((lwpThreadqueueCsenter k₁ w).setThr t (fun l => { l with wait := { l.wait with queue := some w } }),
              s.mutex w, some ⟨t, w, call.timeout, .setstate⟩) := by
          simp [lwpMutexSeize, lwpMutexSeizeIrqTrylock, hl, hh, hut, hws, hk₁, hk₀, Kernel.setRetCode]
        have hr₁ : k₁.Ready t := by rw [Kernel.Ready, hself₁]; exact hr
        have hx₁ : k₁.executing = t := rfl
        have hs' : s.setMutex w (s.mutex w) = s.mutex := Function.update_eq_self ..
        simp only [mutexNext, ← hk₀, he, Option.map_some, Option.getD_some, hs']
        refine h.enter hph hc hl hholder (h₁.enter w call.timeout hx₁ hr₁ ⟨rfl, rfl, rfl⟩ rfl rfl rfl) (fun w' => ?_) ?_
          (fun v => ?_) (fun v hv => ?_) ?_ rfl
        · unfold mutexQueue
          by_cases hw' : w' = w
          · subst hw'; simp [lwpThreadqueueCsenter, Kernel.setTq, hk₁, hk₀, Kernel.setRetCode]
          · simp [lwpThreadqueueCsenter, Kernel.setTq, hk₁, hk₀, Kernel.setRetCode, hw']
        · simp [lwpThreadqueueCsenter, Kernel.setTq]
        · by_cases hv : v = t
          · subst hv; rw [setThr_thr_self]; show (k₁.thr v).curState = _; rw [hself₁]
          · rw [setThr_thr_ne _ _ _ hv]; show (k₁.thr v).curState = _; rw [hne₁ v hv]
        · rw [setThr_thr_ne _ _ _ hv]; exact hne₁ v hv
        · rw [setThr_thr_self]; show (k₁.thr t).wait.retCode = _; rw [hself₁]
      · have he : lwpMutexSeize k₀ (s.mutex w) w call.waitStatus call.timeout =
            (k₁.setRetCode t call.waitStatus, s.mutex w, none) := by
          have hws' : ¬ call.waitStatus = 0#32 := hws
          simp [lwpMutexSeize, lwpMutexSeizeIrqTrylock, hl, hh, hut, hws', hk₁, hk₀, Kernel.setRetCode]
        obtain ⟨c1, c2, c3, c4, c5⟩ := hcode call.waitStatus
        simp only [mutexNext, ← hk₀, he]
        refine h.doneAtOnce hph hr hc _ (s.mutex w) c1 c2 c3 c4 hattr hl rfl (fun hv ht => ?_)
        rw [c5, if_neg (call.errno_waitStatus hws), Nat.add_zero] at ht
        have hsame : ∀ v, _ = s.locks w v := fun v => if hv' : v = t then hv' ▸ ht else hv v hv'
        refine ⟨.held u ?_ ?_ ?_ (by simp) (by rw [hsame]; exact hpos) (fun v hvu => by rw [hsame, hoth v hvu]), fun hf => by
          rw [ht]; exact h.single w hf t⟩
        · simpa [MutexState.setMutex] using hl
        · simpa [MutexState.setMutex] using hh
        · rw [hsame, ← hn]
          simp [MutexState.setMutex]

/-! ## Steps that no owner notices -/

/-- A step that leaves every thread's state and return code, the queues and the owners as they were. -/
theorem MutexInv.quiet (h : MutexInv rec s Qs) (htq : TqInv s'.kernel Qs' s'.phase.enq) (hpe : s'.phase.enq = s.phase.enq)
    (hun : ∀ w, s'.phase = .unlocking w ↔ s.phase = .unlocking w) (hfresh : ∀ e, s'.phase ≠ .inheriting e)
    (hkq : s'.kernel.tq = s.kernel.tq) (hstate : ∀ u, (s'.kernel.thr u).curState = (s.kernel.thr u).curState)
    (hret : ∀ u, s'.retCode u = s.retCode u) (hwaits : ∀ w u, Waits Qs' w u ↔ Waits Qs w u) (hcalls : s'.calls = s.calls)
    (hdepth : s'.depth = s.depth)
    (hmutex : ∀ w, s'.mutex w = { s.mutex w with blockedCnt := (s'.mutex w).blockedCnt }) : MutexInv rec s' Qs' := by
  have hent : ∀ u, s'.Entering u ↔ s.Entering u := fun u => by rw [MutexState.Entering, hpe]; rfl
  have hready : ∀ u, s'.kernel.Ready u ↔ s.kernel.Ready u := fun u => by rw [Kernel.Ready, hstate]; rfl
  have hlocks : ∀ w u, s'.locks w u = s.locks w u := fun w u =>
    locks_congr (by rw [hdepth]) (by rw [hcalls]) (hent u) (hready u) (hret u)
  refine ⟨htq, fun w => by rw [hmutex]; exact h.attrs w, fun w => by rw [hkq]; exact h.fields w,
    fun e he => by rw [hkq]; exact h.sync e (hpe ▸ he), fun e he => absurd he (hfresh e), fun w u hw => ?_,
    fun e he => by rw [hmutex]; exact h.notOwner e (hpe ▸ he), fun u => ?_,
    fun w => (h.owner w).congr (by rw [hmutex]; exact ⟨rfl, rfl, rfl⟩) (hun w) (hlocks w),
    fun w hrec u => by rw [hlocks]; exact h.single w hrec u,
    fun w u hd hc => (hready u).2 (h.awake w u (by rw [← hdepth]; exact hd) (by rw [← hcalls]; exact hc))⟩
  · rw [hmutex]
    rw [hpe] at hw
    exact h.locked w u (hw.imp (hwaits w u).1 id)
  · cases h.threads u with
    | outside h1 h2 h3 => exact .outside (by rw [hcalls]; exact h1) (fun w => mt (hwaits w u).1 (h2 w)) (mt (hent u).1 h3)
    | entering e h1 h2 h3 h4 => exact .entering e (hpe.trans h1) h2 (by rw [hcalls]; exact h3) ((hret u).trans h4)
    | waits w h1 h2 h3 => exact .waits w (by rw [hcalls]; exact h1) ((hwaits w u).2 h2) ((hret u).trans h3)
    | finished w h1 h2 h3 => exact .finished w (by rw [hcalls]; exact h1) ((hready u).2 h2) (mt (hent u).1 h3)

/-- A thread that owns a mutex is ready, or blocked with a state that a change of priority leaves. -/
theorem MutexInv.steady (h : MutexInv rec s Qs) (hl : 0 < s.locks w t) :
    ¬ s.kernel.Ready t → lwpClearstate (s.kernel.thr t).curState stTransient = (s.kernel.thr t).curState := by
  intro hnr
  cases h.threads t with
  | outside h1 _ _ =>
    have hnp : ¬ s.Pending w t := fun hp => by rw [MutexState.Pending, h1] at hp; cases hp.1
    rw [locks_eq_depth hnp] at hl
    exact absurd (h.awake w t hl h1) hnr
  | entering e h1 h2 _ _ =>
    subst h2
    have hok := h.tq.phase e h1
    have hpc : e.pc ≠ .setstate := fun hp => hnr (hok.ready hp)
    rw [hok.blocked hpc]
    exact (h.tq.state e.queue).2.2.1
  | waits w' _ h2 _ =>
    rw [(h.tq.waits w' t h2).1]
    exact (h.tq.state w').2.2.1
  | finished _ _ h2 _ => exact absurd h2 hnr

variable {e : Enq T W} {m : LwpMutex T}

theorem MutexInv.inherit (h : MutexInv rec s Qs) (hph : s.phase = .inheriting e) : ∃ Qs', MutexInv rec (mutexNext s .inherit) Qs' := by
  have henq : s.phase.enq = some e := by rw [hph]; rfl
  have hmode : (s.mutex e.queue).attrs.mode = .inheritprio := by rw [h.attrs]; rfl
  have htq := h.tq
  rw [henq] at htq
  -- the holder may change its priority, and keeps its state
  obtain ⟨Qs', h', hw', hkq, hkeep⟩ : ∃ Qs', TqInv (lwpMutexInherit s.kernel (s.mutex e.queue)).1 Qs' (some e) ∧
      (∀ w u, Waits Qs' w u ↔ Waits Qs w u) ∧ (lwpMutexInherit s.kernel (s.mutex e.queue)).1.tq = s.kernel.tq ∧
      ∀ v, ((lwpMutexInherit s.kernel (s.mutex e.queue)).1.thr v).curState = (s.kernel.thr v).curState ∧
        ((lwpMutexInherit s.kernel (s.mutex e.queue)).1.thr v).wait = (s.kernel.thr v).wait := by
    cases h.owner e.queue with
    | free hl _ _ _ _ =>
      rw [h.locked e.queue e.thread (.inr ⟨e, henq, rfl⟩)] at hl
      cases hl
    | passing _ _ _ hp _ => rw [hph] at hp; cases hp
    | held u hl hh _ _ hpos _ =>
      have htr := h.steady hpos
      unfold lwpMutexInherit
      rw [hmode, hh]
      dsimp only
      split
      · obtain ⟨Qs', h', hw'⟩ := htq.changepriority (t := u) (fun e' he' _ c p hcp => by
          cases he'
          rw [h.fresh e hph] at hcp
          cases hcp) htr (s.kernel.thr s.kernel.executing).curPrio false
        have hkeep := lwpThreadChangepriority_keeps htr (s.kernel.thr s.kernel.executing).curPrio false
        exact ⟨Qs', h', hw'.waits, lwpThreadChangepriority_tq _ _ _ _, fun v => ⟨(hkeep v).1, (hkeep v).2.1⟩⟩
      · exact ⟨Qs, htq, fun _ _ => Iff.rfl, rfl, fun _ => ⟨rfl, rfl⟩⟩
  simp only [mutexNext, hph]
  set k' := (lwpMutexInherit s.kernel (s.mutex e.queue)).1 with hk'
  have hm : (lwpMutexInherit s.kernel (s.mutex e.queue)).2 =
      { s.mutex e.queue with blockedCnt := (s.mutex e.queue).blockedCnt + 1 } := rfl
  clear_value k'
  refine ⟨Qs', h.quiet h' henq.symm (fun w => by rw [hph]; simp) (fun e' he' => by cases he') hkq (fun v => (hkeep v).1)
    (fun v => by rw [MutexState.retCode, MutexState.retCode, (hkeep v).2]) hw' rfl rfl (fun w => ?_)⟩
  rw [hm]
  by_cases hw : w = e.queue
  · subst hw; simp [MutexState.setMutex]
  · simp [MutexState.setMutex, hw]

/-! ## The way into the queue, and out of it -/

/-- One thread's wait moves on without a lock: it was not pending before, and is not after. -/
theorem MutexInv.moved (h : MutexInv rec s Qs) (htq : TqInv s'.kernel Qs' s'.phase.enq) (hmutex : s'.mutex = s.mutex)
    (hcalls : s'.calls = s.calls) (hdepth : s'.depth = s.depth) (hun : ∀ w, s'.phase = .unlocking w ↔ s.phase = .unlocking w)
    (hfresh : ∀ e, s'.phase = .inheriting e → s.phase = .inheriting e)
    (henq : ∀ e', s'.phase.enq = some e' → ∃ e, s.phase.enq = some e ∧ e'.thread = e.thread ∧ e'.queue = e.queue)
    (hfields : ∀ w, mutexQueue (s.kernel.tq w) → mutexQueue (s'.kernel.tq w))
    (hsync : ∀ e, s'.phase.enq = some e → (s'.kernel.tq e.queue).syncState ≠ .satisfied)
    (hother : ∀ u, u ≠ t → s'.kernel.thr u = s.kernel.thr u) (hent : ∀ u, u ≠ t → (s'.Entering u ↔ s.Entering u))
    (hwaits : ∀ w u, u ≠ t → (Waits Qs' w u ↔ Waits Qs w u)) (hlocked : ∀ w, Waits Qs' w t → (s.mutex w).lock = .locked)
    (hcall : (s.calls t).isSome) (hnp : ∀ w, ¬ s.Pending w t) (hnp' : ∀ w, ¬ s'.Pending w t) (hstand : MutexThread s' Qs' t) :
    MutexInv rec s' Qs' := by
  have hret : ∀ u, u ≠ t → s'.retCode u = s.retCode u := fun u hu => by
    rw [MutexState.retCode, MutexState.retCode, hother u hu]
  have hready : ∀ u, u ≠ t → (s'.kernel.Ready u ↔ s.kernel.Ready u) := fun u hu => by
    rw [Kernel.Ready, Kernel.Ready, hother u hu]
  have hlocks : ∀ w u, s'.locks w u = s.locks w u := fun w u => by
    by_cases hu : u = t
    · subst hu; rw [locks_eq_depth (hnp w), locks_eq_depth (hnp' w), hdepth]
    · exact locks_congr (by rw [hdepth]) (by rw [hcalls]) (hent u hu) (hready u hu) (hret u hu)
  refine ⟨htq, fun w => by rw [hmutex]; exact h.attrs w, fun w => hfields w (h.fields w), hsync,
    fun e he => h.fresh e (hfresh e he), fun w u hw => ?_, fun e' he' => ?_, fun u => ?_,
    fun w => (h.owner w).congr (by rw [hmutex]; exact ⟨rfl, rfl, rfl⟩) (hun w) (hlocks w),
    fun w hrec u => by rw [hlocks]; exact h.single w hrec u, fun w u hd hc => ?_⟩
  · rw [hmutex]
    rcases hw with hw | ⟨e', he', rfl⟩
    · by_cases hu : u = t
      · subst hu; exact hlocked w hw
      · exact h.locked w u (.inl ((hwaits w u hu).1 hw))
    · obtain ⟨e, he, -, hq⟩ := henq e' he'
      rw [hq]
      exact h.locked e.queue u (.inr ⟨e, he, rfl⟩)
  · obtain ⟨e, he, ht, hq⟩ := henq e' he'
    rw [hmutex, hq, ht]
    exact h.notOwner e he
  · by_cases hu : u = t
    · subst hu; exact hstand
    · cases h.threads u with
      | outside h1 h2 h3 =>
        exact .outside (by rw [hcalls]; exact h1) (fun w => mt (hwaits w u hu).1 (h2 w)) (mt (hent u hu).1 h3)
      | entering e h1 h2 h3 h4 =>
        have hin : s'.Entering u := (hent u hu).2 (by rw [MutexState.Entering, h1, Option.map_some, h2])
        obtain ⟨e', he', ht'⟩ := Option.map_eq_some_iff.1 hin
        obtain ⟨e₀, he₀, -, hq⟩ := henq e' he'
        cases h1.symm.trans he₀
        exact .entering e' he' ht' (by rw [hcalls, h3, hq]) ((hret u hu).trans h4)
      | waits w h1 h2 h3 => exact .waits w (by rw [hcalls]; exact h1) ((hwaits w u hu).2 h2) ((hret u hu).trans h3)
      | finished w h1 h2 h3 => exact .finished w (by rw [hcalls]; exact h1) ((hready u hu).2 h2) (mt (hent u hu).1 h3)
  · rw [hcalls] at hc
    rw [hdepth] at hd
    by_cases hu : u = t
    · subst hu; rw [hc] at hcall; cases hcall
    · exact (hready u hu).2 (h.awake w u hd hc)

theorem MutexInv.entering_call (h : MutexInv rec s Qs) (henq : s.phase.enq = some e) :
    s.calls e.thread = some e.queue ∧ s.retCode e.thread = mutexSuccessful := by
  have hin : s.Entering e.thread := by rw [MutexState.Entering, henq]; rfl
  cases h.threads e.thread with
  | outside _ _ h3 => exact absurd hin h3
  | entering e' h1 _ h3 h4 => cases henq.symm.trans h1; exact ⟨h3, h4⟩
  | waits w _ h2 _ => exact absurd h2 ((h.tq.phase e henq).out w)
  | finished _ _ _ h3 => exact absurd hin h3

theorem MutexInv.waiting_call (h : MutexInv rec s Qs) (hw : Waits Qs w t) : s.calls t = some w ∧ s.retCode t = mutexSuccessful := by
  cases h.threads t with
  | outside _ h2 _ => exact absurd hw (h2 w)
  | entering e h1 h2 _ _ => exact absurd hw (h2 ▸ (h.tq.phase e h1).out w)
  | waits w' h1 h2 h3 => cases h.tq.waits_unique hw h2; exact ⟨h1, h3⟩
  | finished _ _ h2 _ => exact absurd h2 (h.tq.not_ready hw)

theorem MutexInv.enqueue (h : MutexInv rec s Qs) (hph : s.phase = .entering e) : ∃ Qs', MutexInv rec (mutexNext s .enqueue) Qs' := by
  have henq : s.phase.enq = some e := by rw [hph]; rfl
  have hin : s.Entering e.thread := by rw [MutexState.Entering, henq]; rfl
  have htq := h.tq
  rw [henq] at htq
  obtain ⟨Qs', htq', hfr, hout⟩ := htq.enqNext
  rw [mutexNext_enqueue hph (h.attrs e.queue)]
  set k' := (enqNext s.kernel e).1 with hk'
  set o := (enqNext s.kernel e).2 with ho
  clear_value k' o
  set s' : MutexState T W := { s with kernel := k', phase := (o.map MutexPhase.entering).getD .idle } with hs'
  have hpe : s'.phase.enq = o := by cases o <;> rfl
  obtain ⟨hcall, hret⟩ := h.entering_call henq
  have hsync := h.sync e henq
  have hothers : ∀ u, u ≠ e.thread → (s'.Entering u ↔ s.Entering u) := fun u hu => by
    rw [MutexState.Entering, MutexState.Entering, hpe, henq]
    cases hout with
    | going e' h1 _ _ _ _ => rw [Option.map_some, h1]; rfl
    | linked _ _ _ => simp [hu.symm]
    | timedOut _ _ _ _ => simp [hu.symm]
    | satisfied _ _ _ _ => simp [hu.symm]
  have hgone : o = none → ¬ s'.Entering e.thread := fun hn => by rw [MutexState.Entering, hpe, hn]; simp
  refine ⟨Qs', h.moved (t := e.thread) (by rw [hpe]; exact htq') rfl rfl rfl (fun w => ?_) (fun e' he' => ?_) (fun e' he' => ?_)
    (fun w hq => by rw [show s'.kernel = k' from rfl, hfr.tq w]; exact hq) (fun e' he' => ?_) hfr.other hothers (fun w u hu => ?_)
    (fun w hw => ?_) (by rw [hcall]; rfl) (fun w hp => hp.2.1 hin) (fun w hp => ?_) ?_⟩
  · rw [hph]
    cases o <;> simp [hs']
  · cases o <;> simp [hs'] at he'
  · rw [hpe] at he'
    subst he'
    cases hout with
    | going _ h1 h2 _ _ _ => exact ⟨e, henq, h1, h2⟩
  · rw [hpe] at he'
    subst he'
    cases hout with
    | going _ _ h2 h3 _ _ => rw [show s'.kernel.tq = s.kernel.tq from h3, h2]; exact hsync
  · cases hout with
    | going _ _ _ _ h4 _ => exact h4 w u
    | linked _ h2 _ => rw [h2]; simp [hu]
    | timedOut _ h2 _ _ => exact h2 w u
    | satisfied _ h2 _ _ => exact h2 w u
  · have hq : w = e.queue := by
      cases hout with
      | going _ _ _ _ h4 _ => exact absurd ((h4 w _).1 hw) ((htq.phase e rfl).out w)
      | linked _ h2 _ => exact ((h2 w _).1 hw).elim (fun hx => absurd hx ((htq.phase e rfl).out w)) (fun hx => hx.1)
      | timedOut _ h2 _ _ => exact absurd ((h2 w _).1 hw) ((htq.phase e rfl).out w)
      | satisfied _ h2 _ _ => exact absurd ((h2 w _).1 hw) ((htq.phase e rfl).out w)
    rw [hq]
    exact h.locked e.queue e.thread (.inr ⟨e, henq, rfl⟩)
  · -- the way in ends blocked, or with a timeout
    cases hout with
    | going e' h1 _ _ _ _ => exact hp.2.1 (by rw [MutexState.Entering, hpe, Option.map_some, h1])
    | linked _ h2 _ => exact htq'.not_ready ((h2 e.queue e.thread).2 (.inr ⟨rfl, rfl⟩)) hp.2.2.1
    | timedOut _ _ _ h4 =>
      have hc := hp.2.2.2
      rw [MutexState.retCode, show s'.kernel = k' from rfl, h4] at hc
      rw [show (s.kernel.tq e.queue).timeoutStatus = mutexTimeout from (h.fields e.queue).1] at hc
      exact absurd hc (show mutexErrno mutexTimeout ≠ .ok by decide)
    | satisfied h1 _ _ _ => exact hsync h1
  · cases hout with
    | going e' h1 h2 h3 h4 h5 =>
      refine .entering e' hpe h1 ?_ ?_
      · rw [h2]; exact hcall
      · rw [MutexState.retCode, show s'.kernel = k' from rfl, h5]; exact hret
    | linked h1 h2 h3 =>
      refine .waits e.queue hcall ((h2 _ _).2 (.inr ⟨rfl, rfl⟩)) ?_
      rw [MutexState.retCode, show s'.kernel = k' from rfl, h3]; exact hret
    | timedOut h1 h2 h3 h4 => exact .finished e.queue hcall h3 (hgone rfl)
    | satisfied h1 _ _ _ => exact absurd h1 hsync

theorem MutexInv.expire (h : MutexInv rec s Qs) (ha : (s.kernel.thr t).timer = .active) :
    ∃ Qs', MutexInv rec (mutexNext s (.expire t)) Qs' := by
  obtain ⟨Qs', htq', hx⟩ := h.tq.tickle ha
  refine ⟨Qs', ?_⟩
  cases hx with
  | took w h1 h2 h3 h4 h5 =>
    obtain ⟨hcall, -⟩ := h.waiting_call h1
    have hent : ¬ s.Entering t := fun hin => by
      obtain ⟨e, he, rfl⟩ := Option.map_eq_some_iff.1 hin
      exact (h.tq.phase e he).out w h1
    refine h.moved (t := t) htq' rfl rfl rfl (fun _ => Iff.rfl) (fun _ he => he) (fun e he => ⟨e, he, rfl, rfl⟩)
      (fun w' hq => by simp only [mutexNext, h5]; exact hq) (fun e he => by simp only [mutexNext, h5]; exact h.sync e he)
      (fun u hu => by simp only [mutexNext, h4]; exact setThr_thr_ne _ _ _ hu) (fun _ _ => Iff.rfl)
      (fun w' u hu => by rw [h2]; simp [hu]) (fun w' hw => absurd rfl ((h2 w' t).1 hw).2) (by rw [hcall]; rfl)
      (fun w' hp => h.tq.not_ready h1 hp.2.2.1) (fun w' hp => ?_) (.finished w hcall h3 hent)
    have hc := hp.2.2.2
    simp only [MutexState.retCode, mutexNext, h4, setThr_thr_self, Lwp.timedOut, (h.fields w).1] at hc
    exact absurd hc (by decide)
  | noted e h1 h2 h3 h4 h5 =>
    subst h2 h3
    obtain ⟨hcall, hret⟩ := h.entering_call h1
    have hin : s.Entering e.thread := by rw [MutexState.Entering, h1]; rfl
    have hsync := h.sync e h1
    rw [if_pos hsync] at h5
    refine h.moved (t := e.thread) htq' rfl rfl rfl (fun _ => Iff.rfl) (fun _ he => he) (fun e he => ⟨e, he, rfl, rfl⟩)
      (fun w' => ?_) (fun e' he' => ?_) (fun u hu => by simp only [mutexNext, h4]; exact setThr_thr_ne _ _ _ hu)
      (fun _ _ => Iff.rfl) (fun _ _ _ => Iff.rfl) (fun w' hw => absurd hw ((h.tq.phase e h1).out w')) (by rw [hcall]; rfl)
      (fun w' hp => hp.2.1 hin) (fun w' hp => hp.2.1 hin) (.entering e h1 rfl hcall ?_)
    · simp only [mutexNext, h5]
      unfold mutexQueue
      by_cases hw : w' = e.queue
      · subst hw; simp [Kernel.setTq]
      · simp [Kernel.setTq, hw]
    · cases h1.symm.trans he'
      simp only [mutexNext, h5]
      simp [Kernel.setTq]
    · simp only [MutexState.retCode, mutexNext, h4, setThr_thr_self]
      exact hret

/-! ## Returns and releases -/

/-- A step that changes what one thread has of one mutex, and nobody's state. -/
theorem MutexInv.changed (h : MutexInv rec s Qs) (hph : s.phase = .idle) (htq : TqInv s'.kernel Qs' none)
    (hpe : s'.phase = .idle ∨ s'.phase = .unlocking w) (hkq : s'.kernel.tq = s.kernel.tq)
    (hstate : ∀ u, (s'.kernel.thr u).curState = (s.kernel.thr u).curState) (hret : ∀ u, s'.retCode u = s.retCode u)
    (hwaits : ∀ w u, Waits Qs' w u ↔ Waits Qs w u) (hcall : ∀ u, u ≠ t → s'.calls u = s.calls u) (hready : s.kernel.Ready t)
    (hcallt : s'.calls t = none) (hdepth : ∀ w' u, w' ≠ w ∨ u ≠ t → s'.depth w' u = s.depth w' u)
    (hmutex : ∀ w', w' ≠ w → s'.mutex w' = s.mutex w') (hattrs : (s'.mutex w).attrs = (s.mutex w).attrs)
    (hlock : (s'.mutex w).lock = (s.mutex w).lock) (hpend : ∀ w', w' ≠ w → ¬ s.Pending w' t)
    (howner : (∀ u, u ≠ t → s'.locks w u = s.locks w u) → s'.locks w t = s'.depth w t → MutexOwner s' w)
    (hle : s'.depth w t ≤ s.locks w t) : MutexInv rec s' Qs' := by
  have hnone : s.phase.enq = none := by rw [hph]; rfl
  have hnone' : s'.phase.enq = none := by rcases hpe with hpe | hpe <;> rw [hpe] <;> rfl
  have hent := not_entering_of_idle hnone
  have hent' := not_entering_of_idle hnone'
  have hrdy : ∀ u, s'.kernel.Ready u ↔ s.kernel.Ready u := fun u => by rw [Kernel.Ready, hstate]; rfl
  have hlocks : ∀ w' u, u ≠ t → s'.locks w' u = s.locks w' u := fun w' u hu =>
    locks_congr (hdepth w' u (.inr hu)) (hcall u hu) (iff_of_false (hent' u) (hent u)) (hrdy u) (hret u)
  have hnp : ∀ w', ¬ s'.Pending w' t := fun w' hp => by rw [MutexState.Pending, hcallt] at hp; cases hp.1
  have hlt : ∀ w', w' ≠ w → s'.locks w' t = s.locks w' t := fun w' hw => by
    rw [locks_eq_depth (hnp w'), locks_eq_depth (hpend w' hw), hdepth w' t (.inl hw)]
  have hno : ∀ w', ¬ Waits Qs w' t := fun w' hw => h.tq.not_ready hw hready
  refine ⟨by rw [hnone']; exact htq, fun w' => ?_, fun w' => by rw [hkq]; exact h.fields w',
    fun e he => absurd (hnone'.symm.trans he) (by simp), fun e he => ?_, fun w' u hw' => ?_,
    fun e he => absurd (hnone'.symm.trans he) (by simp), fun u => ?_, fun w' => ?_, fun w' hrec u => ?_, fun w' u hd hc => ?_⟩
  · by_cases hw : w' = w
    · subst hw; rw [hattrs]; exact h.attrs w'
    · rw [hmutex w' hw]; exact h.attrs w'
  · rcases hpe with hpe | hpe <;> rw [hpe] at he <;> cases he
  · have hl := h.locked w' u (hw'.imp (hwaits w' u).1 fun hen => hen.elim fun e he => absurd (hnone'.symm.trans he.1) (by simp))
    by_cases hw : w' = w
    · subst hw; rw [hlock]; exact hl
    · rw [hmutex w' hw]; exact hl
  · by_cases hu : u = t
    · subst hu
      exact .outside hcallt (fun w' hw => hno w' ((hwaits w' u).1 hw)) (hent' u)
    · exact (h.threads u).congr (hrdy u) (hret u) (hcall u hu) (fun w' => hwaits w' u) (hent u) (hent' u)
  · by_cases hw : w' = w
    · subst hw
      exact howner (hlocks w') (locks_eq_depth (hnp w'))
    · refine (h.owner w').congr (by rw [hmutex w' hw]; exact ⟨rfl, rfl, rfl⟩) (iff_of_false (fun hp => ?_) (by rw [hph]; simp))
        (fun u => ?_)
      · rcases hpe with hpe | hpe <;> rw [hpe] at hp <;> cases hp
        exact hw rfl
      · by_cases hu : u = t
        · subst hu; exact hlt w' hw
        · exact hlocks w' u hu
  · by_cases hu : u = t
    · subst hu
      by_cases hw : w' = w
      · subst hw
        rw [locks_eq_depth (hnp w')]
        exact hle.trans (h.single w' hrec u)
      · rw [hlt w' hw]; exact h.single w' hrec u
    · rw [hlocks w' u hu]; exact h.single w' hrec u
  · by_cases hu : u = t
    · subst hu; exact (hrdy u).2 hready
    · exact (hrdy u).2 (h.awake w' u (by rw [← hdepth w' u (.inr hu)]; exact hd) (by rw [← hcall u hu]; exact hc))

theorem setDepth_self (s : MutexState T W) (w : W) (t : T) (n : Nat) : s.setDepth w t n w t = n := by
  simp [MutexState.setDepth]

theorem setDepth_ne (s : MutexState T W) {w' : W} {u : T} (n : Nat) (hne : w' ≠ w ∨ u ≠ t) : s.setDepth w t n w' u = s.depth w' u := by
  unfold MutexState.setDepth
  by_cases hw : w' = w
  · subst hw
    rw [Function.update_self, Function.update_of_ne (hne.resolve_left (by simp))]
  · rw [Function.update_of_ne hw]

theorem MutexInv.ret (h : MutexInv rec s Qs) (hph : s.phase = .idle) (hr : s.kernel.Ready t) (hc : (s.calls t).isSome) :
    MutexInv rec (mutexNext s (.ret t)) Qs := by
  obtain ⟨w, hw⟩ := Option.isSome_iff_exists.1 hc
  have hnone : s.phase.enq = none := by rw [hph]; rfl
  have htq := h.tq
  rw [hnone] at htq
  have hp : s.Pending w t ↔ mutexErrno (s.kernel.thr t).wait.retCode = .ok :=
    ⟨fun hp => hp.2.2.2, fun hp => ⟨hw, not_entering_of_idle hnone t, hr, hp⟩⟩
  -- the lock that was pending is counted in the depth from now on
  have hdepth : (mutexNext s (.ret t)).depth w t = s.locks w t := by
    simp only [mutexNext, hw]
    by_cases hok : mutexErrno (s.kernel.thr t).wait.retCode = .ok
    · rw [locks_of_pending (hp.2 hok), if_pos hok, setDepth_self]
    · rw [locks_eq_depth (mt hp.1 hok), if_neg hok]
  have hsame : (mutexNext s (.ret t)).kernel = s.kernel ∧ (mutexNext s (.ret t)).mutex = s.mutex ∧
      (mutexNext s (.ret t)).phase = s.phase ∧ (mutexNext s (.ret t)).calls = Function.update s.calls t none := by
    simp only [mutexNext, hw]
    exact ⟨trivial, trivial, trivial, trivial⟩
  obtain ⟨hk, hm, hphase, hcalls⟩ := hsame
  refine h.changed hph (t := t) (w := w) (by rw [hk]; exact htq) (.inl (hphase.trans hph)) (by rw [hk]) (fun _ => by rw [hk])
    (fun u => by rw [MutexState.retCode, hk]; rfl) (fun _ _ => Iff.rfl) (fun u hu => by rw [hcalls, Function.update_of_ne hu]) hr
    (by rw [hcalls, Function.update_self]) (fun w' u hne => ?_) (fun _ _ => by rw [hm]) (by rw [hm]) (by rw [hm])
    (fun w' hw' hp' => hw' (Option.some.inj (hp'.1.symm.trans hw))) (fun hu ht => ?_) hdepth.le
  · simp only [mutexNext, hw]
    split
    · exact setDepth_ne s _ hne
    · rfl
  · refine (h.owner w).congr (by rw [hm]; exact ⟨rfl, rfl, rfl⟩) (by rw [hphase]) (fun u => ?_)
    by_cases hut : u = t
    · subst hut; rw [ht, hdepth]
    · exact hu u hut

theorem lwpMutexRelease_notowner (k : Kernel T W) (ho : m.attrs.onlyownerrelease = true) (hh : m.holder ≠ some k.executing) :
    lwpMutexRelease k m = (k, m, some mutexNotowner) := by
  simp [lwpMutexRelease, ho, hh]

theorem lwpMutexRelease_nested (k : Kernel T W) (hh : m.holder = some k.executing) (hnest : 1 < m.nestCnt.toNat)
    (ha : m.attrs.nestBehavior = .acquire) : lwpMutexRelease k m = (k, { m with nestCnt := m.nestCnt - 1 }, some mutexSuccessful) := by
  have h0 : m.nestCnt ≠ 0 := by bv_omega
  have h1 : m.nestCnt - 1 ≠ 0 := by bv_omega
  simp only [lwpMutexRelease, hh]
  rw [if_neg (by simp), if_neg h0, if_pos ⟨h1, ha⟩]

/-- The last unlock of a mutex: nobody holds it, and the thread may get its own priority back. -/
theorem lwpMutexRelease_last (k : Kernel T W) (hh : m.holder = some k.executing) (hnest : m.nestCnt = 1)
    (hcounts : m.attrs.counts = true) : lwpMutexRelease k m =
      (if ((k.addRes k.executing (-1)).thr k.executing).resCnt = 0 ∧ ((k.addRes k.executing (-1)).thr k.executing).realPrio ≠
          ((k.addRes k.executing (-1)).thr k.executing).curPrio then
        lwpThreadChangepriority (k.addRes k.executing (-1)) k.executing
          ((k.addRes k.executing (-1)).thr k.executing).realPrio true
      else k.addRes k.executing (-1), { m with nestCnt := 0, holder := none }, none) := by
  have h1 : m.nestCnt - 1 = 0 := by rw [hnest]; decide
  have h0 : m.nestCnt ≠ 0 := by rw [hnest]; decide
  simp only [lwpMutexRelease, hh]
  rw [if_neg (by simp), if_neg h0, if_neg (by rw [h1]; simp), if_neg (by rw [h1]; simp), h1]
  simp only [hcounts, if_true, true_and]

theorem MutexInv.unlock (h : MutexInv rec s Qs) (hph : s.phase = .idle) (hr : s.kernel.Ready t) (hc : s.calls t = none) (w : W) :
    ∃ Qs', MutexInv rec (mutexNext s (.unlock t w)) Qs' := by
  have h₀ := h.switch hph t
  have hnone : s.phase.enq = none := by rw [hph]; rfl
  set k₀ : Kernel T W := { s.kernel with executing := t } with hk₀
  have hattr := h.attrs w
  have hexec : k₀.executing = t := rfl
  by_cases hh : (s.mutex w).holder = some t
  · have hnp : ∀ w', ¬ s.Pending w' t := fun w' hp => by rw [MutexState.Pending, hc] at hp; cases hp.1
    cases h.owner w with
    | free _ hn _ _ _ => rw [hh] at hn; cases hn
    | passing _ hn _ _ _ => rw [hh] at hn; cases hn
    | held u hl hu hn _ hpos hoth =>
      cases hh.symm.trans hu
      have hdep := locks_eq_depth (hnp w)
      by_cases hone : s.locks w t = 1
      · -- the last one: the mutex looks for its next owner
        have hnest : (s.mutex w).nestCnt = 1 := BitVec.eq_of_toNat_eq (by rw [hn, hone]; rfl)
        have hcounts : (s.mutex w).attrs.counts = true := by rw [hattr]; rfl
        have he := lwpMutexRelease_last k₀ hh hnest hcounts
        rw [hexec] at he
        have h₁ : TqInv (k₀.addRes t (-1)) Qs none := h₀.setThr ⟨⟨rfl, rfl, rfl⟩, rfl, rfl, id⟩
        have hstate₁ : ∀ u, ((k₀.addRes t (-1)).thr u).curState = (s.kernel.thr u).curState ∧
            ((k₀.addRes t (-1)).thr u).wait = (s.kernel.thr u).wait := fun u => by
          by_cases hu : u = t
          · subst hu; rw [Kernel.addRes, setThr_thr_self]; exact ⟨rfl, rfl⟩
          · rw [Kernel.addRes, setThr_thr_ne _ _ _ hu]; exact ⟨rfl, rfl⟩
        have hready₁ : (k₀.addRes t (-1)).Ready t := by rw [Kernel.Ready, (hstate₁ t).1]; exact hr
        set k₁ := k₀.addRes t (-1) with hk₁
        have hkq₁ : k₁.tq = s.kernel.tq := rfl
        clear_value k₁
        obtain ⟨Qs', h', hw', hkq, hkeep⟩ : ∃ Qs', TqInv (lwpMutexRelease k₀ (s.mutex w)).1 Qs' none ∧
            (∀ w u, Waits Qs' w u ↔ Waits Qs w u) ∧ (lwpMutexRelease k₀ (s.mutex w)).1.tq = s.kernel.tq ∧
            ∀ v, ((lwpMutexRelease k₀ (s.mutex w)).1.thr v).curState = (s.kernel.thr v).curState ∧
              ((lwpMutexRelease k₀ (s.mutex w)).1.thr v).wait = (s.kernel.thr v).wait := by
          rw [he]
          dsimp only
          split
          · obtain ⟨Qs', h', hw'⟩ := h₁.changepriority (t := t) (fun e he => by cases he) (fun hn => absurd hready₁ hn)
              (k₁.thr t).realPrio true
            have hkeep := lwpThreadChangepriority_keeps (fun hn => absurd hready₁ hn) (k₁.thr t).realPrio true
            exact ⟨Qs', h', hw'.waits, (lwpThreadChangepriority_tq _ _ _ _).trans hkq₁,
              fun v => ⟨(hkeep v).1.trans (hstate₁ v).1, (hkeep v).2.1.trans (hstate₁ v).2⟩⟩
          · exact ⟨Qs, h₁, fun _ _ => Iff.rfl, hkq₁, hstate₁⟩
        have hm : (lwpMutexRelease k₀ (s.mutex w)).2 = ({ s.mutex w with nestCnt := 0, holder := none }, none) := by rw [he]
        have hok : s.unlockErrno t w = .ok := by
          rw [MutexState.unlockErrno, ← hk₀, hm]
          show mutexErrno mutexSuccessful = .ok
          decide
        simp only [mutexNext, ← hk₀, hm, hok, if_true]
        set k' := (lwpMutexRelease k₀ (s.mutex w)).1 with hk'
        clear_value k'
        refine ⟨Qs', h.changed hph (t := t) (w := w) h' (.inr rfl) hkq (fun v => (hkeep v).1)
          (fun v => by rw [MutexState.retCode, MutexState.retCode, (hkeep v).2]) hw' (fun _ _ => rfl) hr hc
          (fun w' u hne => setDepth_ne s _ hne) (fun w' hw => ?_) ?_ ?_ (fun w' _ => hnp w') (fun hu ht => ?_) ?_⟩
        · simp [MutexState.setMutex, hw]
        · simp [MutexState.setMutex]
        · simp [MutexState.setMutex]
        · refine .passing ?_ ?_ ?_ rfl (fun u => ?_)
          · simpa [MutexState.setMutex] using hl
          · simp [MutexState.setMutex]
          · simp [MutexState.setMutex]
          · by_cases hut : u = t
            · subst hut
              rw [ht]
              simp only [setDepth_self]
              omega
            · rw [hu u hut, hoth u hut]
        · simp only [setDepth_self]
          omega
      · have hgt : 1 < s.locks w t := by omega
        have hrec : rec w = true := by
          by_contra hf
          have := h.single w (by simpa using hf) t
          omega
        have he := lwpMutexRelease_nested k₀ hh (by rw [hn]; exact hgt) (by rw [hattr, hrec]; rfl)
        have hok : s.unlockErrno t w = .ok := by
          rw [MutexState.unlockErrno, ← hk₀, he]
          show mutexErrno mutexSuccessful = .ok
          decide
        simp only [mutexNext, ← hk₀, he, hok, if_true, Option.isSome_some]
        refine ⟨Qs, h.changed hph (t := t) (w := w) h₀ (.inl rfl) rfl (fun _ => rfl) (fun _ => rfl) (fun _ _ => Iff.rfl)
          (fun _ _ => rfl) hr hc (fun w' u hne => setDepth_ne s _ hne) (fun w' hw => ?_) ?_ ?_ (fun w' _ => hnp w')
          (fun hu ht => ?_) ?_⟩
        · simp [MutexState.setMutex, hw]
        · simp [MutexState.setMutex]
        · simp [MutexState.setMutex]
        · simp only [setDepth_self] at ht
          refine .held t ?_ ?_ ?_ (by simp) (by rw [ht]; omega) (fun u hut => by rw [hu u hut, hoth u hut])
          · simpa [MutexState.setMutex] using hl
          · simpa [MutexState.setMutex] using hh
          · rw [ht]
            simp only [MutexState.setMutex, Function.update_self]
            bv_omega
        · simp only [setDepth_self]
          omega
  · -- not the holder
    have he := lwpMutexRelease_notowner k₀ (m := s.mutex w) (by rw [hattr]; rfl) hh
    have hno : s.unlockErrno t w ≠ .ok := by
      rw [MutexState.unlockErrno, ← hk₀, he]
      show mutexErrno mutexNotowner ≠ .ok
      decide
    have hsame : s.setMutex w (s.mutex w) = s.mutex := Function.update_eq_self ..
    simp only [mutexNext, ← hk₀, he, hno, if_false, Option.isSome_some, if_true, hsame]
    refine ⟨Qs, h.quiet h₀ hnone.symm (fun w' => by rw [hph]) (fun e he => by cases he) rfl (fun _ => rfl) (fun _ => rfl)
      (fun _ _ => Iff.rfl) rfl rfl (fun _ => rfl)⟩

theorem MutexInv.handover (h : MutexInv rec s Qs) (hph : s.phase = .unlocking w) : ∃ Qs', MutexInv rec (mutexNext s .handover) Qs' := by
  have hnone : s.phase.enq = none := by rw [hph]; rfl
  have hent := not_entering_of_idle hnone
  have htq := h.tq
  rw [hnone] at htq
  obtain ⟨Qs', htq', hd⟩ := htq.dequeue w
  have hcounts : (s.mutex w).attrs.counts = true := by rw [h.attrs]; rfl
  have hother : ∀ w', w' ≠ w → s.phase ≠ .unlocking w' := fun w' hw' hp => by
    rw [hph] at hp
    cases hp
    exact hw' rfl
  cases h.owner w with
  | free _ _ _ hp _ => exact absurd hph hp
  | held _ _ _ _ hp _ _ => exact absurd hph hp
  | passing hl hh hn _ hz =>
    cases hdq : lwpThreadqueueDequeue s.kernel w with
    | mk k₁ o =>
      rw [hdq] at hd htq'
      simp only [mutexNext, hph, lwpMutexHandover, hdq]
      simp only at htq'
      cases hd with
      | early e h1 _ _ _ _ _ => cases h1
      | nobody h1 h2 h3 h4 =>
        subst h3
        simp only at h4
        subst h4
        set s' : MutexState T W := { s with mutex := s.setMutex w { s.mutex w with lock := .unlocked }, phase := .idle }
          with hs'
        have hlocks : ∀ w' u, s'.locks w' u = s.locks w' u := fun w' u =>
          locks_congr rfl rfl (iff_of_false (not_entering_of_idle rfl u) (hent u)) Iff.rfl rfl
        have hmo : ∀ w', w' ≠ w → s'.mutex w' = s.mutex w' := fun w' hw' => Function.update_of_ne hw' ..
        have hmw : s'.mutex w = { s.mutex w with lock := .unlocked } := Function.update_self ..
        refine ⟨Qs', htq, fun w' => ?_, h.fields, fun e he => (by cases he), fun e he => (by cases he), fun w' u hw' => ?_,
          fun e he => (by cases he), fun u => (h.threads u).congr Iff.rfl rfl rfl (fun _ => Iff.rfl) (hent u)
            (not_entering_of_idle rfl u), fun w' => ?_, fun w' hrec u => by rw [hlocks]; exact h.single w' hrec u, h.awake⟩
        · by_cases hw : w' = w
          · subst hw; rw [hmw]; exact h.attrs w'
          · rw [hmo w' hw]; exact h.attrs w'
        · have hne : w' ≠ w := by
            rintro rfl
            rcases hw' with hw' | ⟨e, he, -⟩
            · exact h1 u hw'
            · cases he
          rw [hmo w' hne]
          exact h.locked w' u (hw'.imp id fun hen => hen.elim fun e he => by cases he.1)
        · by_cases hw : w' = w
          · subst hw
            exact .free (by rw [hmw]) (by rw [hmw]; exact hh) (by rw [hmw]; exact hn) (by simp [hs'])
              (fun u => by rw [hlocks, hz])
          · exact (h.owner w').congr (by rw [hmo w' hw]; exact ⟨rfl, rfl, rfl⟩)
              (iff_of_false (by simp [hs']) (hother w' hw)) (hlocks w')
      | took u h1 h2 h3 h4 h5 =>
        simp only at h3 h4 h5
        obtain ⟨hcall, hret⟩ := h.waiting_call h1
        simp only [hcounts, if_true]
        set k' := k₁.addRes u 1 with hk'
        have hself : (k'.thr u).curState = (k₁.thr u).curState ∧ (k'.thr u).wait = (k₁.thr u).wait := by
          rw [hk', Kernel.addRes, setThr_thr_self]; exact ⟨rfl, rfl⟩
        have hne : ∀ v, v ≠ u → k'.thr v = s.kernel.thr v := fun v hv => by
          rw [hk', Kernel.addRes, setThr_thr_ne _ _ _ hv, h4, setThr_thr_ne _ _ _ hv]
        have htq'' : TqInv k' Qs' none := htq'.setThr ⟨⟨rfl, rfl, rfl⟩, rfl, rfl, id⟩
        have hkq : k'.tq = s.kernel.tq := h5
        have hrdy : k'.Ready u := by rw [Kernel.Ready, hself.1]; exact h3
        have hretu : (k'.thr u).wait.retCode = mutexSuccessful := by
          rw [hself.2, h4, setThr_thr_self]; exact hret
        clear_value k'
        set s' : MutexState T W :=
          { s with kernel := k', mutex := s.setMutex w { s.mutex w with nestCnt := 1, holder := some u }, phase := .idle }
          with hs'
        have hent' : ∀ v, ¬ s'.Entering v := not_entering_of_idle rfl
        have hready : ∀ v, v ≠ u → (s'.kernel.Ready v ↔ s.kernel.Ready v) := fun v hv => by
          rw [Kernel.Ready, show s'.kernel.thr v = _ from hne v hv]; rfl
        have hretv : ∀ v, v ≠ u → s'.retCode v = s.retCode v := fun v hv => by
          rw [MutexState.retCode, show s'.kernel.thr v = _ from hne v hv]; rfl
        have hlocks : ∀ w' v, w' ≠ w ∨ v ≠ u → s'.locks w' v = s.locks w' v := fun w' v hv => by
          by_cases hvu : v = u
          · subst hvu
            have hw' := hv.resolve_right (by simp)
            have hp : ¬ s.Pending w' v := fun hp => hw' (Option.some.inj (hp.1.symm.trans hcall))
            have hp' : ¬ s'.Pending w' v := fun hp => hw' (Option.some.inj (hp.1.symm.trans hcall))
            rw [locks_eq_depth hp, locks_eq_depth hp']
          · exact locks_congr rfl rfl (iff_of_false (hent' v) (hent v)) (hready v hvu) (hretv v hvu)
        -- the waiting thread has the mutex once, from now on
        have hlu : s'.locks w u = 1 := by
          have hz' := hz u
          rw [locks_eq_depth fun hp => h.tq.not_ready h1 hp.2.2.1] at hz'
          have hp : s'.Pending w u := ⟨hcall, hent' u, hrdy, by
            rw [MutexState.retCode, hretu]; decide⟩
          rw [locks_of_pending hp, show s'.depth = s.depth from rfl, hz']
        have hmo : ∀ w', w' ≠ w → s'.mutex w' = s.mutex w' := fun w' hw' => Function.update_of_ne hw' ..
        have hmw : s'.mutex w = { s.mutex w with nestCnt := 1, holder := some u } := Function.update_self ..
        refine ⟨Qs', htq'', fun w' => ?_, fun w' => by rw [hkq]; exact h.fields w', fun e he => (by cases he),
          fun e he => (by cases he), fun w' v hw' => ?_, fun e he => (by cases he), fun v => ?_, fun w' => ?_,
          fun w' hrec v => ?_, fun w' v hd hc => ?_⟩
        · by_cases hw : w' = w
          · subst hw; rw [hmw]; exact h.attrs w'
          · rw [hmo w' hw]; exact h.attrs w'
        · have hl' := h.locked w' v (hw'.imp (fun hx => ((h2 w' v).1 hx).1) fun hen => hen.elim fun e he => by cases he.1)
          by_cases hw : w' = w
          · subst hw; rw [hmw]; exact hl'
          · rw [hmo w' hw]; exact hl'
        · by_cases hvu : v = u
          · subst hvu; exact .finished w hcall hrdy (hent' v)
          · exact (h.threads v).congr (hready v hvu) (hretv v hvu) rfl (fun w' => by rw [h2]; simp [hvu]) (hent v) (hent' v)
        · by_cases hw : w' = w
          · subst hw
            exact .held u (by rw [hmw]; exact hl) (by rw [hmw]) (by rw [hmw, hlu]; rfl) (by simp [hs']) (by rw [hlu]; simp)
              (fun v hv => by rw [hlocks w' v (.inr hv), hz])
          · exact (h.owner w').congr (by rw [hmo w' hw]; exact ⟨rfl, rfl, rfl⟩)
              (iff_of_false (by simp [hs']) (hother w' hw)) (fun v => hlocks w' v (.inl hw))
        · by_cases hv : w' ≠ w ∨ v ≠ u
          · rw [hlocks w' v hv]; exact h.single w' hrec v
          · simp only [not_or, not_not] at hv
            rw [hv.1, hv.2, hlu]
        · have hvu : v ≠ u := fun e => by rw [e, show s'.calls u = _ from hcall] at hc; cases hc
          exact (hready v hvu).2 (h.awake w' v hd hc)

/-! ## Every run -/

/-- A thread does not nest its locks of one mutex beyond what `nest_cnt` can count. -/
def mutexShallow (s : MutexState T W) : MutexEvent T W → Prop
  | .lock t w _ => s.depth w t + 1 < 2 ^ 32
  | _ => True

instance (s : MutexState T W) : ∀ e, Decidable (mutexShallow s e)
  | .lock _ _ _ => inferInstanceAs (Decidable (_ < _))
  | .inherit | .enqueue | .ret _ | .unlock _ _ | .handover | .expire _ => inferInstanceAs (Decidable True)

theorem mutexNext_inv (h : MutexInv rec s Qs) {e : MutexEvent T W} (hg : mutexGuard s e) (hd : mutexShallow s e) :
    ∃ Qs', MutexInv rec (mutexNext s e) Qs' := by
  cases e with
  | lock t w call => exact ⟨Qs, h.lock hg.1 hg.2.1 hg.2.2 w call hd⟩
  | inherit => obtain ⟨e, he⟩ := hg; exact h.inherit he
  | enqueue => obtain ⟨e, he⟩ := hg; exact h.enqueue he
  | ret t => exact ⟨Qs, h.ret hg.1 hg.2.1 hg.2.2⟩
  | unlock t w => exact h.unlock hg.1 hg.2.1 hg.2.2 w
  | handover => obtain ⟨w, hw⟩ := hg; exact h.handover hw
  | expire t => exact h.expire hg

theorem MutexInv.start {k : Kernel T W} {idle : T} {ws : List W} (hk : SchedState idle k) (ht : ∀ t, (k.thr t).timer ≠ .active)
    (hws : ∀ w, w ∈ ws) : ∃ Qs, MutexInv rec (mutexStart k ws rec) Qs := by
  set cfg : W → ThrQueue := fun _ => ⟨.synchronized, .priority, stWaitingForMutex, mutexTimeout⟩ with hcfg
  obtain ⟨Qs₀, hb⟩ := hk.booting ht cfg
  obtain ⟨Qs, h'⟩ := Booting.inits ws hb
  have hkern : (mutexStart k ws rec).kernel = threadqueuesInit cfg ws k := rfl
  obtain ⟨htq, hno⟩ := h'.ok hws (fun _ => by decide)
  have hlocks : ∀ w t, (mutexStart k ws rec).locks w t = 0 := fun w t =>
    locks_eq_depth fun hp => by cases hp.1
  refine ⟨Qs, htq, fun _ => rfl, fun w => ?_, fun e he => (by cases he), fun e he => (by cases he), fun w t hw => ?_,
    fun e he => (by cases he), fun t => .outside rfl (fun w => hno w t) (not_entering_of_idle rfl t), fun w => ?_,
    fun w _ t => by rw [hlocks]; simp, fun w t hd => absurd hd (by simp [mutexStart])⟩
  · rw [hkern, h'.fields w (.inl (hws w))]
    exact ⟨rfl, rfl⟩
  · rcases hw with hw | ⟨e, he, -⟩
    · exact absurd hw (hno w t)
    · cases he
  · exact .free rfl rfl rfl (by simp [mutexStart]) (hlocks w)

/-- Two mutexes: one thread holds both, another waits for one of them with a timeout, a third gets it. -/
def mutexSample : List (MutexEvent (Fin 3) Bool) :=
  [.lock 1 true .lock, .ret 1, .lock 1 true .tryLock, .ret 1, .lock 1 false .lock, .ret 1, .lock 2 true (.timedLock false),
    .inherit, .enqueue, .enqueue, .enqueue, .expire 2, .ret 2, .lock 0 true .lock, .inherit, .enqueue, .enqueue, .enqueue,
    .unlock 1 true, .unlock 1 true, .handover, .ret 0, .unlock 2 true]

/-- The kernel of three started threads, with no thread queue yet. -/
def mutexSampleKernel : Kernel (Fin 3) Bool :=
  (schedSystem Bool (0 : Fin 3)).run (lwpSysinit (threadsInit (zeroKernel (Fin 3) Bool 0) (fun t => if t = 1 then 10 else 190)
    (fun _ => true)) 0) [.ready 1, .ready 2]

theorem mutexSampleKernel_sched : SchedState 0 mutexSampleKernel := by
  refine System.Legal.invariant (I := SchedState 0) (fun _ _ hs he => schedNext_state hs he) (lwpSysinit_state _ _ _ _) ?_
  decide +kernel

/-- The state after the holder has locked a recursive mutex `n` times more. -/
def MutexState.relocked (s : MutexState T W) (w : W) (t : T) (n : Nat) : MutexState T W :=
  { s with
    mutex := s.setMutex w { s.mutex w with nestCnt := (s.mutex w).nestCnt + BitVec.ofNat 32 n }
    depth := s.setDepth w t (s.depth w t + n) }

/-- A thread that is executing, inside no call, and holds a recursive mutex. -/
structure MutexState.Holding (s : MutexState T W) (w : W) (t : T) : Prop where
  phase : s.phase = .idle
  exec : s.kernel.executing = t
  ready : s.kernel.Ready t
  ret : s.retCode t = mutexSuccessful
  call : s.calls t = none
  nest : (s.mutex w).attrs.nestBehavior = .acquire
  lock : (s.mutex w).lock = .locked
  holder : (s.mutex w).holder = some t

theorem MutexState.Holding.relocked (h : s.Holding w t) (n : Nat) : (s.relocked w t n).Holding w t := by
  have hm : (s.relocked w t n).mutex w = { s.mutex w with nestCnt := (s.mutex w).nestCnt + BitVec.ofNat 32 n } :=
    Function.update_self ..
  exact ⟨h.phase, h.exec, h.ready, h.ret, h.call, by rw [hm]; exact h.nest, by rw [hm]; exact h.lock,
    by rw [hm]; exact h.holder⟩

theorem MutexState.Holding.relock (h : s.Holding w t) :
    mutexSystem.Legal s [.lock t w .lock, .ret t] ∧ mutexSystem.run s [.lock t w .lock, .ret t] = s.relocked w t 1 := by
  have hk : ({ s.kernel with executing := t } : Kernel T W).setRetCode t mutexSuccessful = s.kernel := by
    have hx : ({ s.kernel with executing := t } : Kernel T W) = s.kernel := by rw [← h.exec]
    have hret := h.ret
    unfold MutexState.retCode at hret
    rw [hx, Kernel.setRetCode, Kernel.setThr, ← hret]
    simp
  have he : lwpMutexSeize { s.kernel with executing := t } (s.mutex w) w MutexCall.lock.waitStatus MutexCall.lock.timeout =
      (s.kernel, { s.mutex w with nestCnt := (s.mutex w).nestCnt + 1 }, none) := by
    simp [lwpMutexSeize, lwpMutexSeizeIrqTrylock, h.lock, h.holder, h.nest, hk]
  have hlock : mutexNext s (.lock t w .lock) = { s with
      mutex := s.setMutex w { s.mutex w with nestCnt := (s.mutex w).nestCnt + 1 }
      phase := .idle, calls := Function.update s.calls t (some w) } := by
    simp only [mutexNext, he]
    rfl
  have hok : mutexErrno (s.kernel.thr t).wait.retCode = .ok := by
    rw [show (s.kernel.thr t).wait.retCode = mutexSuccessful from h.ret]
    decide
  refine ⟨⟨⟨h.phase, h.ready, h.call⟩, ?_, trivial⟩, ?_⟩
  · show mutexGuard (mutexNext s (.lock t w .lock)) (.ret t)
    rw [hlock]
    exact ⟨rfl, h.ready, by simp⟩
  · show mutexNext (mutexNext s (.lock t w .lock)) (.ret t) = _
    rw [hlock]
    have hcall : Function.update (Function.update s.calls t (some w)) t none = s.calls := by
      rw [Function.update_idem, ← h.call, Function.update_eq_self]
    simp only [mutexNext, Function.update_self, hok, if_true, hcall, MutexState.relocked, ← h.phase]
    rfl

/-- `n` more locks. -/
def relocks (w : W) (t : T) : Nat → List (MutexEvent T W)
  | 0 => []
  | n + 1 => relocks w t n ++ [.lock t w .lock, .ret t]

theorem MutexState.Holding.relocks (h : s.Holding w t) :
    ∀ n, mutexSystem.Legal s (relocks w t n) ∧ mutexSystem.run s (relocks w t n) = s.relocked w t n
  | 0 => by
    refine ⟨trivial, ?_⟩
    have hm : s.setMutex w { s.mutex w with nestCnt := (s.mutex w).nestCnt + BitVec.ofNat 32 0 } = s.mutex := by
      rw [show (s.mutex w).nestCnt + BitVec.ofNat 32 0 = (s.mutex w).nestCnt by simp]
      exact Function.update_eq_self ..
    have hd : s.setDepth w t (s.depth w t + 0) = s.depth := by
      unfold MutexState.setDepth
      rw [Nat.add_zero, Function.update_eq_self, Function.update_eq_self]
    rw [MutexState.relocked, hm, hd]
    rfl
  | n + 1 => by
    obtain ⟨hl, hr⟩ := h.relocks n
    obtain ⟨hl', hr'⟩ := (h.relocked n).relock
    refine ⟨System.legal_append hl (by rw [hr]; exact hl'), ?_⟩
    rw [Libogc.relocks, System.run_append, hr, hr']
    simp only [MutexState.relocked, MutexState.setMutex, MutexState.setDepth, Function.update_self, Function.update_idem]
    rw [BitVec.add_assoc, BitVec.ofNat_add, Nat.add_assoc]

/-- After `n` more locks the holder has the mutex still, and only its nesting count has moved. -/
theorem MutexState.Holding.nested {s₀ : MutexState T W} {es : List (MutexEvent T W)} (hl : mutexSystem.Legal s₀ es)
    (h : (mutexSystem.run s₀ es).Holding w t) (n : Nat) : ∃ fs, mutexSystem.Legal s₀ fs ∧ (mutexSystem.run s₀ fs).Holding w t ∧
      ((mutexSystem.run s₀ fs).mutex w).nestCnt = ((mutexSystem.run s₀ es).mutex w).nestCnt + BitVec.ofNat 32 n := by
  obtain ⟨hl', hr⟩ := h.relocks n
  have hrun : mutexSystem.run s₀ (es ++ Libogc.relocks w t n) = (mutexSystem.run s₀ es).relocked w t n := by
    rw [System.run_append, hr]
  refine ⟨es ++ Libogc.relocks w t n, System.legal_append hl hl', ?_, ?_⟩
  · rw [hrun]
    exact h.relocked n
  · rw [hrun]
    simp [MutexState.relocked, MutexState.setMutex]

end Libogc
