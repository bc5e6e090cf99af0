import Libogc.Lwp.Sema
/-!
# SemaRuns — every unit of a semaphore is accounted for

`SemaThread` says where a thread stands: outside, in a wait that did not block, on its way into the queue, waiting there, or
at the end of a wait that blocked.  A thread holds a unit when it was served; the count, the units held and the waits that
returned 0 add up to the initial count and the posts.
-/
namespace Libogc

open Links Runs

set_option linter.unusedSectionVars false

variable {T W : Type} [DecidableEq T] [DecidableEq W]

def SemaState.retCode (s : SemaState T W) (t : T) : BitVec 32 := (s.kernel.thr t).wait.retCode
def SemaState.sync (s : SemaState T W) : SyncState := (s.kernel.tq s.sema.waitQueue).syncState
def SemaState.Entering (s : SemaState T W) (t : T) : Prop := ∃ e, s.phase.enq = some e ∧ e.thread = t

/-- **How a wait that blocked ends**: with a post and 0, or with no post and a timeout or a deletion. -/
def SemaState.Ended (s : SemaState T W) (t : T) : Prop :=
  (s.fed t = 1 ∧ s.retCode t = semaSuccessful) ∨ (s.fed t = 0 ∧ s.retCode t = semaTimeout) ∨
    (s.fed t = 0 ∧ s.retCode t = semaDeleted)

/-- Where a thread stands. -/
inductive SemaThread (s : SemaState T W) (Qs : QId T W → Option (List T)) (t : T) : Prop
  | outside (call : s.calls t = .none) (out : ¬ Waits Qs s.sema.waitQueue t) (notIn : ¬ s.Entering t) (fed : s.fed t = 0)
  | direct (call : s.calls t = .direct) (ready : s.kernel.Ready t) (notIn : ¬ s.Entering t) (fed : s.fed t = 0)
    (ret : semaErrno (s.retCode t) = .ok ↔ s.retCode t = semaSuccessful)
  | entering (call : s.calls t = .blocking) (inside : s.Entering t) (ret : s.retCode t = semaSuccessful)
    (fed : s.fed t = if s.sync = .satisfied then 1 else 0)
  | waits (call : s.calls t = .blocking) (on : Waits Qs s.sema.waitQueue t) (ret : s.retCode t = semaSuccessful)
    (fed : s.fed t = 0)
  | ended (call : s.calls t = .blocking) (ready : s.kernel.Ready t) (notIn : ¬ s.Entering t) (how : s.Ended t)

variable {t : T} {k' : Kernel T W}

variable {s' : SemaState T W} {Qs' : QId T W → Option (List T)} {w' : W} {e : Enq T W}

theorem SemaThread.congr {s : SemaState T W} {Qs : QId T W → Option (List T)} (h : SemaThread s Qs t)
    (hthr : s'.kernel.thr t = s.kernel.thr t) (hcall : s'.calls t = s.calls t) (hfed : s'.fed t = s.fed t)
    (hwait : Waits Qs' s'.sema.waitQueue t ↔ Waits Qs s.sema.waitQueue t) (hent : s'.Entering t ↔ s.Entering t)
    (hsync : s.Entering t → s'.sync = s.sync) : SemaThread s' Qs' t := by
  have hret : s'.retCode t = s.retCode t := by rw [SemaState.retCode, hthr]; rfl
  have hready : s'.kernel.Ready t ↔ s.kernel.Ready t := by rw [Kernel.Ready, hthr]; rfl
  cases h with
  | outside h1 h2 h3 h4 => exact .outside (hcall.trans h1) (mt hwait.1 h2) (mt hent.1 h3) (hfed.trans h4)
  | direct h1 h2 h3 h4 h5 =>
    exact .direct (hcall.trans h1) (hready.2 h2) (mt hent.1 h3) (hfed.trans h4) (by rw [hret]; exact h5)
  | entering h1 h2 h3 h4 =>
    exact .entering (hcall.trans h1) (hent.2 h2) (hret.trans h3) (by rw [hfed, hsync h2]; exact h4)
  | waits h1 h2 h3 h4 => exact .waits (hcall.trans h1) (hwait.2 h2) (hret.trans h3) (hfed.trans h4)
  | ended h1 h2 h3 h4 =>
    refine .ended (hcall.trans h1) (hready.2 h2) (mt hent.1 h3) ?_
    unfold SemaState.Ended at *
    rw [hfed, hret]
    exact h4

/-- A thread holds a unit: it was served at once, or handed a post. -/
def SemaState.Holds (s : SemaState T W) (t : T) : Prop :=
  (s.calls t = .direct ∧ s.retCode t = semaSuccessful) ∨ (s.calls t = .blocking ∧ s.fed t = 1)

instance (s : SemaState T W) : DecidablePred s.Holds := fun _ => inferInstanceAs (Decidable (_ ∨ _))

/-- **What every run keeps.** -/
structure SemaInv [Fintype T] (init maxCnt : BitVec 32) (w : W) (mode : ThreadqMode) (s : SemaState T W)
    (Qs : QId T W → Option (List T)) : Prop where
  tq : TqInv s.kernel Qs s.phase.enq
  queue : s.sema.waitQueue = w
  limit : s.sema.maxCnt = maxCnt
  fields : (s.kernel.tq w).mode = mode ∧ (s.kernel.tq w).timeoutStatus = semaTimeout
  phase : ∀ e, s.phase.enq = some e → e.queue = w
  threads : ∀ t, SemaThread s Qs t
  room : s.sema.count ≠ 0 → (∀ t, ¬ Waits Qs w t) ∧ ∀ e, s.phase.enq = some e → s.sync = .satisfied
  posting : s.phase = .posting → ∀ t, ¬ Waits Qs w t
  bound : s.sema.count.toNat ≤ max init.toNat maxCnt.toNat
  sum : s.sema.count.toNat + (s.seized + tally s.Holds) = init.toNat + s.posted

variable [Fintype T] {init maxCnt : BitVec 32} {w : W} {mode : ThreadqMode} {s : SemaState T W}
  {Qs : QId T W → Option (List T)}

theorem SemaInv.not_holds_of_waits (h : SemaInv init maxCnt w mode s Qs) (ht : Waits Qs w' t) : ¬ s.Holds t := by
  have hnr := h.tq.not_ready ht
  rintro (⟨hc, -⟩ | ⟨hc, hf⟩)
  · cases h.threads t with
    | outside h1 _ _ _ => rw [h1] at hc; cases hc
    | direct _ h2 _ _ _ => exact hnr h2
    | entering h1 _ _ _ => rw [h1] at hc; cases hc
    | waits h1 _ _ _ => rw [h1] at hc; cases hc
    | ended h1 _ _ _ => rw [h1] at hc; cases hc
  · cases h.threads t with
    | outside h1 _ _ _ => rw [h1] at hc; cases hc
    | direct h1 _ _ _ _ => rw [h1] at hc; cases hc
    | entering _ h2 _ _ =>
      obtain ⟨e, he, rfl⟩ := h2
      exact (h.tq.phase e he).out w' ht
    | waits _ _ _ h4 => rw [h4] at hf; cases hf
    | ended _ h2 _ _ => exact hnr h2

theorem holds_congr {s : SemaState T W} (hret : s'.retCode t = s.retCode t) (hcall : s'.calls t = s.calls t)
    (hfed : s'.fed t = s.fed t) : s'.Holds t ↔ s.Holds t := by
  unfold SemaState.Holds
  rw [hret, hcall, hfed]

/-! ## Waits that begin and end -/

theorem SemaInv.switch (h : SemaInv init maxCnt w mode s Qs) (hph : s.phase = .idle) (t : T) :
    SemaInv init maxCnt w mode { s with kernel := { s.kernel with executing := t } } Qs := by
  have hnone : s.phase.enq = none := by rw [hph]; rfl
  have htq : TqInv { s.kernel with executing := t } Qs s.phase.enq := by
    have h1 := h.tq
    rw [hnone] at h1 ⊢
    exact h1.switch t
  exact ⟨htq, h.queue, h.limit, h.fields, h.phase,
    fun u => (h.threads u).congr rfl rfl rfl Iff.rfl Iff.rfl (fun _ => rfl), h.room, h.posting, h.bound, h.sum⟩

theorem SemaInv.outside (h : SemaInv init maxCnt w mode s Qs) (hc : s.calls t = .none) : ¬ Waits Qs w t ∧ s.fed t = 0 ∧ ¬ s.Holds t := by
  have hnh : ¬ s.Holds t := by
    rintro (⟨h1, -⟩ | ⟨h1, -⟩)
    · rw [hc] at h1; cases h1
    · rw [hc] at h1; cases h1
  cases h.threads t with
  | outside _ h2 _ h4 => exact ⟨h.queue ▸ h2, h4, hnh⟩
  | direct h1 _ _ _ _ => rw [hc] at h1; cases h1
  | entering h1 _ _ _ => rw [hc] at h1; cases h1
  | waits h1 _ _ _ => rw [hc] at h1; cases h1
  | ended h1 _ _ _ => rw [hc] at h1; cases h1

theorem SemaWait.errno_waitStatus (call : SemaWait) : semaErrno call.waitStatus = .ok ↔ call.waitStatus = semaSuccessful := by
  cases call with
  | wait => decide
  | timedWait due => cases due <;> decide
  | tryWait => decide

/-- **A wait that does not block**: it takes a unit when there is one, and none otherwise. -/
theorem SemaInv.seize_direct (h : SemaInv init maxCnt w mode s Qs) (hph : s.phase = .idle) (hc : s.calls t = .none)
    {sema : LwpSema W} (htq : TqInv k' Qs none) (hkq : k'.tq = s.kernel.tq) (hother : ∀ u, u ≠ t → k'.thr u = s.kernel.thr u)
    (hrdy : k'.Ready t) (hsq : sema.waitQueue = w) (hsm : sema.maxCnt = maxCnt)
    (hret : semaErrno (k'.thr t).wait.retCode = .ok ↔ (k'.thr t).wait.retCode = semaSuccessful)
    (hcount : ((k'.thr t).wait.retCode = semaSuccessful ∧ sema.count.toNat + 1 = s.sema.count.toNat) ∨ ((k'.thr t).wait.retCode ≠ semaSuccessful ∧ sema.count = s.sema.count)) :
    SemaInv init maxCnt w mode
      { s with kernel := k', sema := sema, phase := .idle, calls := Function.update s.calls t .direct } Qs := by
  set s' : SemaState T W :=
    { s with kernel := k', sema := sema, phase := .idle, calls := Function.update s.calls t .direct } with hs'
  obtain ⟨hout, hfed, hnh⟩ := h.outside hc
  have hnone : s.phase.enq = none := by rw [hph]; rfl
  have hnoent : ∀ u, ¬ s.Entering u := fun u ⟨e, he, _⟩ => by rw [hnone] at he; cases he
  have hnoent' : ∀ u, ¬ s'.Entering u := fun u ⟨e, he, _⟩ => by cases he
  have hcallt : s'.calls t = .direct := Function.update_self ..
  have hcall : ∀ u, u ≠ t → s'.calls u = s.calls u := fun u hu => Function.update_of_ne hu ..
  have hHolds : ∀ u, u ≠ t → (s'.Holds u ↔ s.Holds u) := fun u hu =>
    holds_congr (by rw [SemaState.retCode, SemaState.retCode, show s'.kernel.thr u = _ from hother u hu]) (hcall u hu) rfl
  have hle : sema.count.toNat ≤ s.sema.count.toNat := by
    rcases hcount with ⟨-, h1⟩ | ⟨-, h1⟩
    · omega
    · rw [h1]
  refine ⟨htq, hsq, hsm, by rw [hkq]; exact h.fields, fun e he => (by cases he), fun u => ?_, fun hne => ?_,
    fun hp => (by cases hp), le_trans hle h.bound, ?_⟩
  · by_cases hu : u = t
    · subst hu
      exact .direct hcallt hrdy (hnoent' u) hfed hret
    · exact (h.threads u).congr (hother u hu) (hcall u hu) rfl (by rw [hsq, h.queue])
        (iff_of_false (hnoent' u) (hnoent u)) (fun he => absurd he (hnoent u))
  · have hne' : s.sema.count ≠ 0 := by
      intro h0
      apply hne
      rw [h0] at hle
      exact BitVec.eq_of_toNat_eq (by simpa using hle)
    exact ⟨(h.room hne').1, fun e he => by cases he⟩
  · have hsum := h.sum
    rcases hcount with ⟨hsucc, h1⟩ | ⟨hsucc, h1⟩
    · have ht : tally s'.Holds = tally s.Holds + 1 := tally_insert hnh (.inl ⟨hcallt, hsucc⟩) hHolds
      rw [ht]
      show sema.count.toNat + (s.seized + _) = _ + s.posted
      omega
    · have ht : tally s'.Holds = tally s.Holds := by
        refine tally_congr fun u => ?_
        by_cases hu : u = t
        · subst hu
          refine iff_of_false ?_ hnh
          rintro (⟨-, h2⟩ | ⟨h2, -⟩)
          · exact hsucc h2
          · rw [hcallt] at h2; cases h2
        · exact hHolds u hu
      rw [ht]
      show sema.count.toNat + (s.seized + _) = _ + s.posted
      rw [h1]
      exact hsum

theorem SemaInv.seize_enter (h : SemaInv init maxCnt w mode s Qs) (hph : s.phase = .idle) (hc : s.calls t = .none)
    (h0 : s.sema.count = 0) (htq : TqInv k' Qs (some e)) (het : e.thread = t) (heq : e.queue = w)
    (hsync : (k'.tq w).syncState = .nothinghappend) (hfields : (k'.tq w).mode = mode ∧ (k'.tq w).timeoutStatus = semaTimeout)
    (hother : ∀ u, u ≠ t → k'.thr u = s.kernel.thr u) (hret : (k'.thr t).wait.retCode = semaSuccessful) :
    SemaInv init maxCnt w mode { s with kernel := k', phase := .entering e, calls := Function.update s.calls t .blocking } Qs := by
  set s' : SemaState T W :=
    { s with kernel := k', phase := .entering e, calls := Function.update s.calls t .blocking } with hs'
  obtain ⟨hout, hfed, hnh⟩ := h.outside hc
  have hnone : s.phase.enq = none := by rw [hph]; rfl
  have hnoent : ∀ u, ¬ s.Entering u := fun u ⟨e, he, _⟩ => by rw [hnone] at he; cases he
  have hent' : ∀ u, s'.Entering u ↔ u = t := by
    intro u
    constructor
    · rintro ⟨e', he', rfl⟩
      cases he'
      exact het
    · rintro rfl
      exact ⟨e, rfl, het⟩
  have hcallt : s'.calls t = .blocking := Function.update_self ..
  have hcall : ∀ u, u ≠ t → s'.calls u = s.calls u := fun u hu => Function.update_of_ne hu ..
  have hsync' : s'.sync ≠ .satisfied := by
    rw [SemaState.sync, show s'.sema.waitQueue = w from h.queue, hsync]
    simp
  refine ⟨htq, h.queue, h.limit, hfields, fun e' he' => (by cases he'; exact heq), fun u => ?_, fun hne => absurd h0 hne,
    fun hp => (by cases hp), h.bound, ?_⟩
  · by_cases hu : u = t
    · subst hu
      refine .entering hcallt ((hent' u).2 rfl) hret ?_
      rw [if_neg hsync']
      exact hfed
    · exact (h.threads u).congr (hother u hu) (hcall u hu) rfl Iff.rfl
        (iff_of_false (fun he => hu ((hent' u).1 he)) (hnoent u)) (fun he => absurd he (hnoent u))
  · have ht : tally s'.Holds = tally s.Holds := by
      refine tally_congr fun u => ?_
      by_cases hu : u = t
      · subst hu
        refine iff_of_false ?_ hnh
        rintro (⟨h2, -⟩ | ⟨-, h2⟩)
        · rw [hcallt] at h2; cases h2
        · rw [show s'.fed u = 0 from hfed] at h2; cases h2
      · exact holds_congr (by rw [SemaState.retCode, SemaState.retCode, show s'.kernel.thr u = _ from hother u hu])
          (hcall u hu) rfl
    rw [ht]
    exact h.sum

theorem SemaInv.seize (h : SemaInv init maxCnt w mode s Qs) (hph : s.phase = .idle) (hr : s.kernel.Ready t)
    (hc : s.calls t = .none) (call : SemaWait) : SemaInv init maxCnt w mode (semaNext s (.seize t call)) Qs := by
  have hsw := h.switch hph t
  have hnone : s.phase.enq = none := by rw [hph]; rfl
  set k₀ : Kernel T W := { s.kernel with executing := t } with hk₀
  have h₀ : TqInv k₀ Qs none := by rw [← hnone]; exact hsw.tq
  have h₁ : TqInv (k₀.setRetCode t semaSuccessful) Qs none := h₀.setThr (setRetCode_sameBlock _ _)
  have hr₁ : (k₀.setRetCode t semaSuccessful).Ready t := by
    rw [Kernel.Ready, Kernel.setRetCode, setThr_thr_self]
    exact hr
  have hne₁ : ∀ u, u ≠ t → (k₀.setRetCode t semaSuccessful).thr u = s.kernel.thr u := fun u hu => by
    rw [Kernel.setRetCode, setThr_thr_ne _ _ _ hu]
  simp only [semaNext, lwpSemaSeize]
  by_cases h0 : s.sema.count = 0
  · rw [if_neg (by simpa using h0)]
    by_cases hws : call.waitStatus = 0
    · -- the queue: the thread remembers it, and enters
      rw [if_neg (by simpa using hws)]
      simp only [h.queue, Option.map_some, Option.getD_some, Option.isSome_some, if_true]
      refine h.seize_enter hph hc h0 (h₁.enter w call.timeout rfl hr₁ ⟨rfl, rfl, rfl⟩ rfl rfl rfl) rfl rfl ?_ ?_
        (fun u hu => ?_) ?_
      · simp [lwpThreadqueueCsenter, Kernel.setTq]
      · have hf := h.fields
        simpa [lwpThreadqueueCsenter, Kernel.setTq, Kernel.setRetCode] using hf
      · rw [setThr_thr_ne _ _ _ hu]
        exact hne₁ u hu
      · rw [setThr_thr_self]
        simp [lwpThreadqueueCsenter, Kernel.setTq, Kernel.setRetCode]
    · rw [if_pos (by simpa using hws)]
      simp only [Option.map_none, Option.getD_none, Option.isSome_none]
      refine h.seize_direct hph hc (h₁.setThr (setRetCode_sameBlock _ _)) rfl (fun u hu => ?_) ?_ h.queue h.limit ?_
        (.inr ⟨?_, rfl⟩)
      · rw [Kernel.setRetCode, setThr_thr_ne _ _ _ hu]
        exact hne₁ u hu
      · rw [Kernel.Ready, Kernel.setRetCode, setThr_thr_self]
        exact hr₁
      · rw [Kernel.setRetCode, setThr_thr_self]
        exact call.errno_waitStatus
      · rw [Kernel.setRetCode, setThr_thr_self]
        exact hws
  · rw [if_pos (by simpa using h0)]
    simp only [Option.map_none, Option.getD_none, Option.isSome_none]
    refine h.seize_direct hph hc h₁ rfl hne₁ hr₁ h.queue h.limit ?_ (.inl ⟨?_, ?_⟩)
    · rw [Kernel.setRetCode, setThr_thr_self]
      exact SemaWait.errno_waitStatus .wait
    · rw [Kernel.setRetCode, setThr_thr_self]
    · have hpos : 1 ≤ s.sema.count.toNat := by
        rcases Nat.eq_zero_or_pos s.sema.count.toNat with hz | hz
        · exact absurd (BitVec.eq_of_toNat_eq (by simpa using hz)) h0
        · exact hz
      show (s.sema.count - 1).toNat + 1 = s.sema.count.toNat
      bv_omega

theorem SemaInv.finished (h : SemaInv init maxCnt w mode s Qs) (hph : s.phase.enq = none) (hr : s.kernel.Ready t)
    (hc : s.calls t ≠ .none) : (s.calls t = .direct ∧ s.fed t = 0 ∧
      (semaErrno (s.retCode t) = .ok ↔ s.retCode t = semaSuccessful)) ∨ (s.calls t = .blocking ∧ s.Ended t) := by
  cases h.threads t with
  | outside h1 _ _ _ => exact absurd h1 hc
  | direct h1 _ _ h4 h5 => exact .inl ⟨h1, h4, h5⟩
  | entering _ h2 _ _ => obtain ⟨e, he, -⟩ := h2; rw [hph] at he; cases he
  | waits _ h2 _ _ => exact absurd hr (h.tq.not_ready h2)
  | ended h1 _ _ h4 => exact .inr ⟨h1, h4⟩

/-- At the end of a wait, the thread holds a unit exactly when the wait returns 0. -/
theorem SemaInv.holds_iff (h : SemaInv init maxCnt w mode s Qs) (hph : s.phase.enq = none) (hr : s.kernel.Ready t)
    (hc : s.calls t ≠ .none) : s.Holds t ↔ semaErrno (s.retCode t) = .ok := by
  unfold SemaState.Holds
  rcases h.finished hph hr hc with ⟨h1, -, h3⟩ | ⟨h1, ⟨h2, h3⟩ | ⟨h2, h3⟩ | ⟨h2, h3⟩⟩
  · rw [h3]
    simp [h1]
  · simp only [h1, h2, h3]
    decide
  · simp only [h1, h2, h3]
    decide
  · simp only [h1, h2, h3]
    decide

theorem SemaInv.ret (h : SemaInv init maxCnt w mode s Qs) (hph : s.phase = .idle) (hr : s.kernel.Ready t) (hc : s.calls t ≠ .none) :
    SemaInv init maxCnt w mode (semaNext s (.ret t)) Qs := by
  have hnone : s.phase.enq = none := by rw [hph]; rfl
  have hout : ¬ Waits Qs s.sema.waitQueue t := fun hw => h.tq.not_ready hw hr
  have hnoent : ∀ u, ¬ s.Entering u := fun u ⟨e, he, _⟩ => by rw [hnone] at he; cases he
  have hiff := h.holds_iff hnone hr hc
  set s' := semaNext s (.ret t) with hs'
  have hcallt : s'.calls t = .none := Function.update_self ..
  have hcall : ∀ u, u ≠ t → s'.calls u = s.calls u := fun u hu => Function.update_of_ne hu ..
  have hfed : ∀ u, u ≠ t → s'.fed u = s.fed u := fun u hu => Function.update_of_ne hu ..
  have hnh : ¬ s'.Holds t := by
    rintro (⟨h1, -⟩ | ⟨h1, -⟩)
    · rw [hcallt] at h1; cases h1
    · rw [hcallt] at h1; cases h1
  refine ⟨h.tq, h.queue, h.limit, h.fields, h.phase, fun u => ?_, h.room, h.posting, h.bound, ?_⟩
  · by_cases hu : u = t
    · subst hu
      exact .outside hcallt hout (hnoent u) (Function.update_self ..)
    · exact (h.threads u).congr rfl (hcall u hu) (hfed u hu) Iff.rfl Iff.rfl (fun _ => rfl)
  · have hsum := h.sum
    have hHolds : ∀ u, u ≠ t → (s.Holds u ↔ s'.Holds u) := fun u hu =>
      (holds_congr (show s'.retCode u = s.retCode u from rfl) (hcall u hu) (hfed u hu)).symm
    show s.sema.count.toNat + ((if semaErrno (s.retCode t) = .ok then s.seized + 1 else s.seized) + _) = _ + s.posted
    by_cases hok : semaErrno (s.retCode t) = .ok
    · have ht : tally s.Holds = tally s'.Holds + 1 := tally_insert hnh (hiff.2 hok) hHolds
      rw [if_pos hok]
      omega
    · have ht : tally s'.Holds = tally s.Holds := by
        refine tally_congr fun u => ?_
        by_cases hu : u = t
        · subst hu
          exact iff_of_false hnh (mt hiff.1 hok)
        · exact (hHolds u hu).symm
      rw [if_neg hok, ht]
      exact hsum

/-! ## The way into the queue -/

theorem SemaInv.enqueue (h : SemaInv init maxCnt w mode s Qs) (hph : s.phase = .entering e) :
    ∃ Qs', SemaInv init maxCnt w mode (semaNext s .enqueue) Qs' := by
  have henq : s.phase.enq = some e := by rw [hph]; rfl
  have heq := h.phase e henq
  have htq := h.tq
  rw [henq] at htq
  obtain ⟨Qs', htq', hfr, hout⟩ := htq.enqNext
  have hnext : semaNext s .enqueue =
      { s with kernel := (enqNext s.kernel e).1, phase := ((enqNext s.kernel e).2.map SemaPhase.entering).getD .idle } := by
    simp only [semaNext, hph]
  rw [hnext]
  set k' := (enqNext s.kernel e).1 with hk'
  set o := (enqNext s.kernel e).2 with ho
  clear_value k' o
  set s' : SemaState T W := { s with kernel := k', phase := (o.map SemaPhase.entering).getD .idle } with hs'
  have hpe : s'.phase.enq = o := by cases o <;> rfl
  have hfields : (k'.tq w).mode = mode ∧ (k'.tq w).timeoutStatus = semaTimeout := by
    rw [hfr.tq w]
    exact h.fields
  have hposting : s'.phase ≠ .posting := by cases o <;> simp [hs']
  have hphase : ∀ e', s'.phase.enq = some e' → e'.queue = w := by
    intro e' he'
    rw [hpe] at he'
    subst he'
    cases hout with
    | going _ _ h2 _ _ _ => exact h2.trans heq
  -- the thread on its way in was not served at once, and holds a unit when it was overtaken by a post
  obtain ⟨hcall, hret, hfed⟩ : s.calls e.thread = .blocking ∧ s.retCode e.thread = semaSuccessful ∧
      s.fed e.thread = if s.sync = .satisfied then 1 else 0 := by
    cases h.threads e.thread with
    | outside _ _ h3 _ => exact absurd ⟨e, henq, rfl⟩ h3
    | direct _ _ h3 _ _ => exact absurd ⟨e, henq, rfl⟩ h3
    | entering h1 _ h3 h4 => exact ⟨h1, h3, h4⟩
    | waits _ h2 _ _ => exact absurd h2 ((htq.phase e rfl).out _)
    | ended _ _ h3 _ => exact absurd ⟨e, henq, rfl⟩ h3
  have hsync : s.sync = (s.kernel.tq e.queue).syncState := by rw [SemaState.sync, h.queue, heq]
  have hnoent : ∀ u, u ≠ e.thread → ¬ s.Entering u := by
    rintro u hu ⟨e', he', rfl⟩
    rw [henq] at he'
    cases he'
    exact hu rfl
  have hnoent' : ∀ u, u ≠ e.thread → ¬ s'.Entering u := by
    rintro u hu ⟨e', he', rfl⟩
    rw [hpe] at he'
    subst he'
    cases hout with
    | going _ h1 _ _ _ _ => exact hu h1
  have hothers : (∀ u, u ≠ e.thread → (Waits Qs' w u ↔ Waits Qs w u)) → ∀ u, u ≠ e.thread → SemaThread s' Qs' u :=
    fun hw u hu => (h.threads u).congr (hfr.other u hu) rfl rfl (by rw [h.queue]; exact hw u hu)
      (iff_of_false (hnoent' u hu) (hnoent u hu)) (fun he => absurd he (hnoent u hu))
  have hHolds : tally s'.Holds = tally s.Holds := by
    refine tally_congr fun u => ?_
    by_cases hu : u = e.thread
    · subst hu
      unfold SemaState.Holds
      simp only [show s'.calls = s.calls from rfl, show s'.fed = s.fed from rfl, hcall]
      simp
    · exact holds_congr (by rw [SemaState.retCode, SemaState.retCode, show s'.kernel.thr u = _ from hfr.other u hu]) rfl rfl
  have hbuild : (∀ u, SemaThread s' Qs' u) →
      (s.sema.count ≠ 0 → (∀ t, ¬ Waits Qs' w t) ∧ ∀ e', s'.phase.enq = some e' → s'.sync = .satisfied) →
      SemaInv init maxCnt w mode s' Qs' := fun h1 h2 =>
    ⟨by rw [hpe]; exact htq', h.queue, h.limit, hfields, hphase, h1, h2, fun hp => absurd hp hposting, h.bound,
      by rw [hHolds]; exact h.sum⟩
  refine ⟨Qs', hbuild ?_ ?_⟩
  · intro u
    by_cases hu : u = e.thread
    · subst hu
      have hn : o = none → ¬ s'.Entering e.thread := by
        rintro rfl ⟨e', he', -⟩
        cases he'
      cases hout with
      | going e' h1 h2 h3 h4 h5 =>
        refine .entering hcall ⟨e', hpe, h1⟩ ?_ ?_
        · rw [SemaState.retCode, show s'.kernel = k' from rfl, h5]; exact hret
        · rw [show s'.sync = s.sync by simp only [SemaState.sync, hs', h3]]; exact hfed
      | linked h1 h2 h3 =>
        refine .waits hcall ?_ ?_ ?_
        · rw [h.queue]; exact (h2 _ _).2 (.inr ⟨heq.symm, rfl⟩)
        · rw [SemaState.retCode, show s'.kernel = k' from rfl, h3]; exact hret
        · rw [show s'.fed = s.fed from rfl, hfed, hsync, h1]; simp
      | timedOut h1 h2 h3 h4 =>
        refine .ended hcall h3 (hn rfl) (.inr (.inl ⟨?_, ?_⟩))
        · rw [show s'.fed = s.fed from rfl, hfed, hsync, h1]; simp
        · rw [SemaState.retCode, show s'.kernel = k' from rfl, h4, heq]; exact h.fields.2
      | satisfied h1 h2 h3 h4 =>
        refine .ended hcall h3 (hn rfl) (.inl ⟨?_, ?_⟩)
        · rw [show s'.fed = s.fed from rfl, hfed, hsync, h1]; simp
        · rw [SemaState.retCode, show s'.kernel = k' from rfl, h4]; exact hret
    · refine hothers (fun u hu => ?_) u hu
      cases hout with
      | going e' h1 h2 h3 h4 h5 => exact h4 w u
      | linked h1 h2 h3 => rw [h2]; simp [hu]
      | timedOut h1 h2 h3 h4 => exact h2 w u
      | satisfied h1 h2 h3 h4 => exact h2 w u
  · intro hne
    obtain ⟨hno, hsat⟩ := h.room hne
    have hsat' := hsat e henq
    rw [hsync] at hsat'
    cases hout with
    | going e' h1 h2 h3 h4 h5 =>
      refine ⟨fun t ht => hno t ((h4 w t).1 ht), fun e'' he'' => ?_⟩
      rw [show s'.sync = s.sync by simp only [SemaState.sync, hs', h3]]
      exact hsat e henq
    | linked h1 h2 h3 => rw [h1] at hsat'; cases hsat'
    | timedOut h1 h2 h3 h4 => rw [h1] at hsat'; cases hsat'
    | satisfied h1 h2 h3 h4 => exact ⟨fun t ht => hno t ((h2 w t).1 ht), fun e'' he'' => by cases he''⟩

/-! ## Posts -/

/-- **A post that finds a thread** hands it a unit, whether it waits or is still on its way in. -/
theorem SemaInv.fedOne (h : SemaInv init maxCnt w mode s Qs) (htq' : TqInv k' Qs' s.phase.enq)
    (hd : Dequeued s.kernel Qs s.phase.enq w k' Qs' (some t)) :
    SemaInv init maxCnt w mode { s with kernel := k', fed := s.feed (some t), posted := s.posted + 1 } Qs' := by
  set s' : SemaState T W := { s with kernel := k', fed := s.feed (some t), posted := s.posted + 1 } with hs'
  have hfedt : s'.fed t = s.fed t + 1 := Function.update_self ..
  have hfed : ∀ u, u ≠ t → s'.fed u = s.fed u := fun u hu => Function.update_of_ne hu ..
  -- in either case the thread is inside a wait that blocked and has had nothing yet
  obtain ⟨hcall, hret, hzero, hother, hrett, hwaits, hfields, hstand, hroom, hsync⟩ : s.calls t = .blocking ∧
      s.retCode t = semaSuccessful ∧ s.fed t = 0 ∧ (∀ u, u ≠ t → k'.thr u = s.kernel.thr u) ∧
      (k'.thr t).wait.retCode = (s.kernel.thr t).wait.retCode ∧ (∀ u, u ≠ t → (Waits Qs' w u ↔ Waits Qs w u)) ∧
      ((k'.tq w).mode = mode ∧ (k'.tq w).timeoutStatus = semaTimeout) ∧ SemaThread s' Qs' t ∧ s.sema.count = 0 ∧
      (∀ u, u ≠ t → s.Entering u → s'.sync = s.sync) := by
    cases hd with
    | took _ h1 h2 h3 h4 h5 =>
      have hz : s.sema.count = 0 := by
        by_contra hne
        exact (h.room hne).1 t h1
      have hne : ∀ u, u ≠ t → k'.thr u = s.kernel.thr u := fun u hu => by rw [h4, setThr_thr_ne _ _ _ hu]
      have hr : (k'.thr t).wait.retCode = (s.kernel.thr t).wait.retCode := by rw [h4, setThr_thr_self]; rfl
      have hent : ¬ s'.Entering t := fun ⟨e, he, ht⟩ => (h.tq.phase e he).out w (ht ▸ h1)
      cases h.threads t with
      | outside _ ho _ _ => exact absurd (h.queue.symm ▸ h1) ho
      | direct _ ho _ _ _ => exact absurd ho (h.tq.not_ready h1)
      | entering _ ho _ _ => exact absurd ho hent
      | ended _ ho _ _ => exact absurd ho (h.tq.not_ready h1)
      | waits c1 c2 c3 c4 =>
        refine ⟨c1, c3, c4, hne, hr, fun u hu => by rw [h2]; simp [hu], by rw [h5]; exact h.fields, ?_, hz, fun u _ _ => ?_⟩
        · exact .ended c1 h3 hent (.inl ⟨by rw [hfedt, c4], hr.trans c3⟩)
        · simp only [SemaState.sync, hs', h5]
    | early e h1 h2 h3 h4 h5 h6 =>
      subst h5
      have hz : s.sema.count = 0 := by
        by_contra hne
        have := (h.room hne).2 e h1
        rw [SemaState.sync, h.queue] at this
        exact h4 this
      have hsync' : s'.sync = .satisfied := by simp [SemaState.sync, hs', h6, h.queue, Kernel.setTq]
      have hns : s.sync ≠ .satisfied := by rw [SemaState.sync, h.queue]; exact h4
      cases h.threads e.thread with
      | outside _ _ ho _ => exact absurd ⟨e, h1, rfl⟩ ho
      | direct _ _ ho _ _ => exact absurd ⟨e, h1, rfl⟩ ho
      | waits _ ho _ _ => exact absurd ho ((h.tq.phase e h1).out _)
      | ended _ _ ho _ => exact absurd ⟨e, h1, rfl⟩ ho
      | entering c1 c2 c3 c4 =>
        rw [if_neg hns] at c4
        refine ⟨c1, c3, c4, fun u _ => by rw [h6]; rfl, by rw [h6]; rfl, fun _ _ => Iff.rfl, ?_, ?_, hz, ?_⟩
        · rw [h6]
          simpa [Kernel.setTq] using h.fields
        · refine .entering c1 ⟨e, h1, rfl⟩ ?_ ?_
          · rw [SemaState.retCode, show s'.kernel = k' from rfl, h6]; exact c3
          · rw [hsync', if_pos rfl, hfedt, c4]
        · rintro u hu ⟨e', he', rfl⟩
          rw [h1] at he'
          cases he'
          exact absurd rfl hu
  refine ⟨htq', h.queue, h.limit, hfields, h.phase, fun u => ?_, fun hne => absurd hroom hne, fun hp => ?_, h.bound, ?_⟩
  · by_cases hu : u = t
    · subst hu; exact hstand
    · exact (h.threads u).congr (hother u hu) rfl (hfed u hu) (by rw [h.queue]; exact hwaits u hu) Iff.rfl (hsync u hu)
  · intro u hw
    by_cases hu : u = t
    · subst hu
      cases hd with
      | took _ _ h2 _ _ _ => exact ((h2 w u).1 hw).2 rfl
      | early e h1 _ _ _ _ _ => rw [show s.phase = .posting from hp] at h1; cases h1
    · exact h.posting hp u ((hwaits u hu).1 hw)
  · have ht : tally s'.Holds = tally s.Holds + 1 := by
      refine tally_insert ?_ (.inr ⟨hcall, by rw [hfedt, hzero]⟩) (fun u hu => ?_)
      · rintro (⟨h1, -⟩ | ⟨-, h1⟩)
        · rw [hcall] at h1; cases h1
        · rw [hzero] at h1; cases h1
      · exact holds_congr (by rw [SemaState.retCode, SemaState.retCode, show s'.kernel.thr u = _ from hother u hu]) rfl
          (hfed u hu)
    have hsum := h.sum
    show s.sema.count.toNat + (s.seized + tally s'.Holds) = _ + (s.posted + 1)
    omega

theorem SemaInv.counted (h : SemaInv init maxCnt w mode s Qs) (hno : ∀ u, ¬ Waits Qs w u)
    (hsat : ∀ e, s.phase.enq = some e → s.sync = .satisfied) :
    SemaInv init maxCnt w mode
      { s with
        sema := (lwpSemaCountup s.sema).1
        posted := if semaErrno (lwpSemaCountup s.sema).2 = .ok then s.posted + 1 else s.posted } Qs := by
  by_cases hlt : s.sema.count < s.sema.maxCnt
  · have he : lwpSemaCountup s.sema = ({ s.sema with count := s.sema.count + 1 }, semaSuccessful) := by
      simp [lwpSemaCountup, hlt]
    have hok : semaErrno semaSuccessful = .ok := by decide
    have hinc : (s.sema.count + 1).toNat = s.sema.count.toNat + 1 ∧ s.sema.count.toNat + 1 ≤ maxCnt.toNat := by
      rw [h.limit] at hlt
      bv_omega
    simp only [he, hok, if_true]
    refine ⟨h.tq, h.queue, h.limit, h.fields, h.phase,
      fun u => (h.threads u).congr rfl rfl rfl Iff.rfl Iff.rfl (fun _ => rfl), fun _ => ⟨hno, hsat⟩, h.posting, ?_, ?_⟩
    · show (s.sema.count + 1).toNat ≤ _
      omega
    · have hsum := h.sum
      show (s.sema.count + 1).toNat + (s.seized + tally s.Holds) = _ + (s.posted + 1)
      omega
  · have he : lwpSemaCountup s.sema = (s.sema, semaMaxcntExceeded) := by simp [lwpSemaCountup, hlt]
    have hok : semaErrno semaMaxcntExceeded ≠ .ok := by decide
    simp only [he, hok, if_false]
    exact h

theorem SemaInv.post (h : SemaInv init maxCnt w mode s Qs) (hph : s.phase = .idle) (t : T) :
    ∃ Qs', SemaInv init maxCnt w mode (semaNext s (.post t)) Qs' := by
  have h₀ := h.switch hph t
  obtain ⟨Qs', htq', hd⟩ := h₀.tq.dequeue w
  simp only [semaNext, h.queue]
  simp only at hd htq'
  cases hret : (lwpThreadqueueDequeue { s.kernel with executing := t } w).2 with
  | some u =>
    rw [hret] at hd
    have hfed := h₀.fedOne htq' hd
    simp only [Option.isSome_some, if_true]
    rw [← hph]
    exact ⟨Qs', hfed⟩
  | none =>
    rw [hret] at hd
    simp only [Option.isSome_none]
    cases hd with
    | nobody h1 h2 h3 h4 =>
      subst h3
      rw [h4]
      refine ⟨Qs', ?_, h.queue, h.limit, h.fields, fun e he => (by cases he), fun u => ?_, fun hne => ?_, fun _ => h1, h.bound,
        h.sum⟩
      · have := h₀.tq
        simp only [hph] at this
        exact this
      · refine (h₀.threads u).congr rfl rfl rfl Iff.rfl ?_ (fun _ => rfl)
        simp only [SemaState.Entering, hph]
        exact Iff.rfl
      · exact ⟨h1, fun e he => by cases he⟩

theorem SemaInv.postCount (h : SemaInv init maxCnt w mode s Qs) (hph : s.phase = .posting) :
    SemaInv init maxCnt w mode (semaNext s .postCount) Qs := by
  have hno := h.posting hph
  have hnone : s.phase.enq = none := by rw [hph]; rfl
  have hc := h.counted hno (fun e he => by rw [hnone] at he; cases he)
  refine ⟨?_, hc.queue, hc.limit, hc.fields, fun e he => (by cases he), fun u => ?_, fun hne => ⟨hno, fun e he => (by cases he)⟩,
    fun hp => (by cases hp), hc.bound, hc.sum⟩
  · have := hc.tq
    simp only [hnone] at this
    exact this
  · refine (hc.threads u).congr rfl rfl rfl Iff.rfl ?_ (fun _ => rfl)
    simp only [SemaState.Entering, hnone]
    exact Iff.rfl

theorem SemaInv.isrPost (h : SemaInv init maxCnt w mode s Qs) : ∃ Qs', SemaInv init maxCnt w mode (semaNext s .isrPost) Qs' := by
  obtain ⟨Qs', htq', hd⟩ := h.tq.dequeue w
  have hok : semaErrno semaSuccessful = .ok := by decide
  cases hret : lwpThreadqueueDequeue s.kernel w with
  | mk k' o =>
    rw [hret] at hd htq'
    simp only [semaNext, lwpSemaSurrender, h.queue, hret]
    cases o with
    | some u =>
      simp only [hok, if_true]
      exact ⟨Qs', h.fedOne htq' hd⟩
    | none =>
      cases hd with
      | nobody h1 h2 h3 h4 =>
        subst h3
        rw [h4]
        exact ⟨Qs', h.counted h1 fun e he => by rw [SemaState.sync, h.queue]; exact h2 e he (h.phase e he)⟩

/-! ## Ends without a post -/

/-- A waiting thread's wait ends without a post: it is ready, with the return code of the end. -/
theorem SemaInv.endedBy (h : SemaInv init maxCnt w mode s Qs) (htq' : TqInv k' Qs' s.phase.enq) (hw : Waits Qs w' t)
    (hwaits : ∀ w u, Waits Qs' w u ↔ Waits Qs w u ∧ u ≠ t) (hready : k'.Ready t) (hother : ∀ u, u ≠ t → k'.thr u = s.kernel.thr u)
    (hkq : k'.tq = s.kernel.tq) (hret : w' = w → (k'.thr t).wait.retCode = semaTimeout ∨ (k'.thr t).wait.retCode = semaDeleted) :
    SemaInv init maxCnt w mode { s with kernel := k' } Qs' := by
  set s' : SemaState T W := { s with kernel := k' } with hs'
  have hnot := h.not_holds_of_waits hw
  have hent : ¬ s.Entering t := fun ⟨e, he, ht⟩ => (h.tq.phase e he).out w' (ht ▸ hw)
  have hsync : s'.sync = s.sync := by simp only [SemaState.sync, hs', hkq]
  -- a thread that waits on another queue is outside this semaphore
  have hstand : SemaThread s' Qs' t ∧ (s.calls t = .none ∨ s.calls t = .blocking) := by
    cases h.threads t with
    | outside c1 c2 c3 c4 => exact ⟨.outside c1 (fun hx => ((hwaits _ t).1 hx).2 rfl) c3 c4, .inl c1⟩
    | direct _ c2 _ _ _ => exact absurd c2 (h.tq.not_ready hw)
    | entering _ c2 _ _ => exact absurd c2 hent
    | ended _ c2 _ _ => exact absurd c2 (h.tq.not_ready hw)
    | waits c1 c2 c3 c4 =>
      rw [h.queue] at c2
      exact ⟨.ended c1 hready hent (.inr ((hret (h.tq.waits_unique hw c2)).imp (⟨c4, ·⟩) (⟨c4, ·⟩))), .inr c1⟩
  refine ⟨htq', h.queue, h.limit, by rw [hkq]; exact h.fields, h.phase, fun u => ?_, fun hne => ?_,
    fun hp u hx => h.posting hp u ((hwaits w u).1 hx).1, h.bound, ?_⟩
  · by_cases hu : u = t
    · subst hu; exact hstand.1
    · exact (h.threads u).congr (hother u hu) rfl rfl ((hwaits _ u).trans (and_iff_left hu)) Iff.rfl (fun _ => hsync)
  · rw [hsync]
    exact ⟨fun u hx => (h.room hne).1 u ((hwaits w u).1 hx).1, (h.room hne).2⟩
  · have ht : tally s'.Holds = tally s.Holds := by
      refine tally_congr fun u => ?_
      by_cases hu : u = t
      · subst hu
        refine iff_of_false ?_ hnot
        rintro (⟨c, -⟩ | hc)
        · rcases hstand.2 with c' | c' <;> rw [show s'.calls u = _ from c'] at c <;> cases c
        · exact hnot (.inr hc)
      · exact holds_congr (by rw [SemaState.retCode, SemaState.retCode, show s'.kernel.thr u = _ from hother u hu]) rfl rfl
    rw [ht]
    exact h.sum

theorem SemaInv.flush (h : SemaInv init maxCnt w mode s Qs) (hph : s.phase = .idle) :
    ∃ Qs', SemaInv init maxCnt w mode (semaNext s .flush) Qs' := by
  have hnone : s.phase.enq = none := by rw [hph]; rfl
  obtain ⟨Qs', htq', hd⟩ := h.tq.dequeue w
  cases hret : lwpThreadqueueDequeue s.kernel w with
  | mk k' o =>
    rw [hret] at hd htq'
    simp only [semaNext, h.queue, hret]
    simp only at htq'
    cases hd with
    | took t h1 h2 h3 h4 h5 =>
      refine ⟨Qs', h.endedBy (htq'.setThr (setRetCode_sameBlock _ _)) h1 h2 ?_ (fun u hu => ?_) h5 (fun _ => .inr ?_)⟩
      · rw [Kernel.Ready, Kernel.setRetCode, setThr_thr_self]; exact h3
      · rw [Kernel.setRetCode, setThr_thr_ne _ _ _ hu]
        exact (congrFun h4 u).trans (setThr_thr_ne _ _ _ hu)
      · rw [Kernel.setRetCode, setThr_thr_self]
    | early e h1 _ _ _ _ _ => rw [hnone] at h1; cases h1
    | nobody h1 h2 h3 h4 =>
      subst h3
      simp only at h4
      rw [h4]
      exact ⟨Qs', h⟩

theorem SemaInv.expire (h : SemaInv init maxCnt w mode s Qs) (ha : (s.kernel.thr t).timer = .active) :
    ∃ Qs', SemaInv init maxCnt w mode (semaNext s (.expire t)) Qs' := by
  obtain ⟨Qs', htq', he⟩ := h.tq.tickle ha
  refine ⟨Qs', ?_⟩
  cases he with
  | took w' h1 h2 h3 h4 h5 =>
    refine h.endedBy htq' h1 h2 h3 (fun u hu => by rw [h4, setThr_thr_ne _ _ _ hu]) h5 (fun hw => .inl ?_)
    subst hw
    rw [h4, setThr_thr_self]
    exact h.fields.2
  | noted e h1 h2 h3 h4 h5 =>
    -- a note for a thread on its way in, which an earlier post overrides
    subst h2 h3
    have hq := h.phase e h1
    set s' := semaNext s (.expire e.thread) with hs'
    have hsync : s'.sync = .satisfied ↔ s.sync = .satisfied := by
      simp only [SemaState.sync, hs', semaNext, h5, h.queue, hq]
      split
      · rename_i hns
        simp [Kernel.setTq, hns]
      · rename_i hns
        exact Iff.rfl
    have hfields : (s'.kernel.tq w).mode = mode ∧ (s'.kernel.tq w).timeoutStatus = semaTimeout := by
      have hf := h.fields
      simp only [hs', semaNext, h5]
      split
      · rw [hq]
        simpa [Kernel.setTq] using hf
      · exact hf
    have hret : ∀ u, s'.retCode u = s.retCode u := by
      intro u
      simp only [SemaState.retCode, hs', semaNext, h4]
      by_cases hu : u = e.thread
      · subst hu; rw [setThr_thr_self]
      · rw [setThr_thr_ne _ _ _ hu]
    refine ⟨htq', h.queue, h.limit, hfields, h.phase, fun u => ?_, fun hne => ⟨(h.room hne).1, fun e' he' => ?_⟩, h.posting,
      h.bound, ?_⟩
    · by_cases hu : u = e.thread
      · subst hu
        cases h.threads e.thread with
        | outside _ _ c _ => exact absurd ⟨e, h1, rfl⟩ c
        | direct _ _ c _ _ => exact absurd ⟨e, h1, rfl⟩ c
        | waits _ c _ _ => exact absurd c ((h.tq.phase e h1).out _)
        | ended _ _ c _ => exact absurd ⟨e, h1, rfl⟩ c
        | entering c1 c2 c3 c4 =>
          refine .entering c1 c2 ((hret _).trans c3) ?_
          simp only [hsync]
          exact c4
      · refine (h.threads u).congr ?_ rfl rfl Iff.rfl Iff.rfl (fun he => ?_)
        · simp only [hs', semaNext, h4]
          rw [setThr_thr_ne _ _ _ hu]
        · obtain ⟨e', he', rfl⟩ := he
          rw [h1] at he'
          cases he'
          exact absurd rfl hu
    · exact hsync.2 ((h.room hne).2 e' he')
    · rw [tally_congr fun u => holds_congr (hret u) (show s'.calls u = s.calls u from rfl) rfl]
      exact h.sum

/-! ## Every run -/

theorem semaNext_inv (h : SemaInv init maxCnt w mode s Qs) {e : SemaEvent T} (hg : semaGuard s e) :
    ∃ Qs', SemaInv init maxCnt w mode (semaNext s e) Qs' := by
  cases e with
  | seize t call => exact ⟨Qs, h.seize hg.1 hg.2.1 hg.2.2 call⟩
  | enqueue =>
    cases hph : s.phase with
    | entering e => exact h.enqueue hph
    | idle => rw [semaGuard, hph] at hg; cases hg
    | posting => rw [semaGuard, hph] at hg; cases hg
  | ret t => exact ⟨Qs, h.ret hg.1 hg.2.1 hg.2.2⟩
  | post t => exact h.post hg.1 t
  | postCount => exact ⟨Qs, h.postCount hg⟩
  | isrPost => exact h.isrPost
  | expire t => exact h.expire hg
  | flush => exact h.flush hg

theorem SemaInv.start {k : Kernel T W} (hk : QueueIdle k w) : ∃ Qs, SemaInv init maxCnt w mode (semaStart k w maxCnt mode init) Qs := by
  obtain ⟨Qs, h, hno⟩ := hk
  have hst : WaitState stWaitingForSemaphore := by decide
  obtain ⟨h', hw'⟩ := h.threadqueueInit hno mode hst semaTimeout
  have hout : ∀ t, ¬ Waits (freshQueue Qs w mode) w t := fun t ht => hno t ((hw' w t).1 ht)
  refine ⟨_, h', rfl, rfl, ?_, fun e he => (by cases he), fun t => ?_, fun _ => ⟨hout, fun e he => (by cases he)⟩,
    fun _ => hout, le_max_left _ _, ?_⟩
  · simp [semaStart, lwpSemaInitialize, lwpThreadqueueInit_tq]
  · exact .outside rfl (hout t) (fun ⟨e, he, _⟩ => by cases he) rfl
  · rw [tally_eq_zero (fun t ht => by rcases ht with ⟨c, -⟩ | ⟨c, -⟩ <;> cases c)]
    rfl

/-- A wait that got its unit: it is over and returns 0, or returned already. -/
def SemaState.Served (s : SemaState T W) (t : T) : Prop :=
  s.calls t ≠ .none ∧ s.kernel.Ready t ∧ semaErrno (s.kernel.thr t).wait.retCode = .ok

instance (s : SemaState T W) : DecidablePred s.Served := fun t => inferInstanceAs (Decidable (_ ∧ s.kernel.Ready t ∧ _))

def SemaState.successes (s : SemaState T W) : Nat := s.seized + tally s.Served

theorem SemaInv.served_iff (h : SemaInv init maxCnt w mode s Qs) (hph : s.phase.enq = none) (t : T) : s.Served t ↔ s.Holds t := by
  constructor
  · rintro ⟨hc, hr, hok⟩
    exact (h.holds_iff hph hr hc).2 hok
  · intro hh
    have hcr : s.calls t ≠ .none ∧ s.kernel.Ready t := by
      cases h.threads t with
      | outside c1 _ _ _ => rcases hh with ⟨c, -⟩ | ⟨c, -⟩ <;> rw [c1] at c <;> cases c
      | direct c1 c2 _ _ _ => exact ⟨by rw [c1]; simp, c2⟩
      | entering _ c2 _ _ => obtain ⟨e, he, -⟩ := c2; rw [hph] at he; cases he
      | waits _ c2 _ _ => exact absurd hh (h.not_holds_of_waits c2)
      | ended c1 c2 _ _ => exact ⟨by rw [c1]; simp, c2⟩
    exact ⟨hcr.1, hcr.2, (h.holds_iff hph hcr.2 hcr.1).1 hh⟩

/-- **Conservation.**  In every run of waits, posts by threads and by interrupt handlers, expiring timers and flushes, from a
new semaphore, whenever no thread is on its way into the queue: the count and the successful waits add up to the initial
count and the successful posts; the count is at most the limit or the initial count; a count that is not zero means an empty
queue; and a wait that blocked either still waits, and was handed nothing, or ended with one post and 0, or with no post and
a timeout or a deletion. -/
theorem semaphore_conservation (k : Kernel T W) (w : W) (maxCnt : BitVec 32) (mode : ThreadqMode) (initCount : BitVec 32)
    (es : List (SemaEvent T)) (s : SemaState T W) (hk : QueueIdle k w)
    (hes : semaSystem.Legal (semaStart k w maxCnt mode initCount) es)
    (hs : s = semaSystem.run (semaStart k w maxCnt mode initCount) es) (hph : s.phase.enq = none) :
    s.sema.count.toNat + s.successes = initCount.toNat + s.posted ∧
    s.sema.count.toNat ≤ max initCount.toNat maxCnt.toNat ∧
    (s.sema.count ≠ 0 → ∀ i, ownHeader mode i → lwpQueueIsempty s.kernel.mem (.wait w i) = true) ∧
    ∀ t, s.calls t = .blocking →
      (¬ s.kernel.Ready t ∧ (s.kernel.thr t).wait.queue = some w ∧ s.fed t = 0) ∨
      (s.kernel.Ready t ∧
        ((s.fed t = 1 ∧ semaErrno (s.kernel.thr t).wait.retCode = .ok) ∨
          (s.fed t = 0 ∧ semaErrno (s.kernel.thr t).wait.retCode = .etimedout) ∨
          (s.fed t = 0 ∧ semaErrno (s.kernel.thr t).wait.retCode = .einval))) := by
  have hinv : ∃ Qs, SemaInv initCount maxCnt w mode s Qs := by
    rw [hs]
    refine System.Legal.invariant (I := fun s => ∃ Qs, SemaInv initCount maxCnt w mode s Qs) (fun s e ⟨Qs, h⟩ hg => ?_)
      (SemaInv.start hk) hes
    exact semaNext_inv h hg
  obtain ⟨Qs, h⟩ := hinv
  refine ⟨?_, h.bound, fun hne i hi => ?_, fun t hc => ?_⟩
  · rw [SemaState.successes, tally_congr (h.served_iff hph)]
    exact h.sum
  · have hsome : (Qs (.wait w i)).isSome := by
      cases hm : mode with
      | fifo =>
        rw [hm] at hi
        have hi0 : i = 0 := by simpa [ownHeader] using hi
        rw [hi0]
        exact (h.tq.shape.fifo w (h.fields.1.trans hm)).1
      | priority => exact h.tq.shape.priority w (h.fields.1.trans hm) i
    obtain ⟨xs, hxs⟩ := Option.isSome_iff_exists.1 hsome
    rw [lwpQueueIsempty_iff h.tq.sched.rep hxs, ← held_eq hxs]
    exact List.eq_nil_iff_forall_not_mem.2 fun x hx => (h.room hne).1 x ⟨i, .inl hx⟩
  · cases h.threads t with
    | outside c1 _ _ _ => rw [hc] at c1; cases c1
    | direct c1 _ _ _ _ => rw [hc] at c1; cases c1
    | entering _ c2 _ _ => obtain ⟨e, he, -⟩ := c2; rw [hph] at he; cases he
    | waits _ c2 _ c4 =>
      rw [h.queue] at c2
      exact .inl ⟨h.tq.not_ready c2, (h.tq.waits w t c2).2, c4⟩
    | ended _ c2 _ c4 =>
      refine .inr ⟨c2, ?_⟩
      unfold SemaState.Ended SemaState.retCode at c4
      rcases c4 with ⟨c4, c5⟩ | ⟨c4, c5⟩ | ⟨c4, c5⟩
      · exact .inl ⟨c4, by rw [c5]; decide⟩
      · exact .inr (.inl ⟨c4, by rw [c5]; decide⟩)
      · exact .inr (.inr ⟨c4, by rw [c5]; decide⟩)

/-- A wait takes the only unit; a second one blocks with a timeout, and a handler posts before it is on the queue. -/
def semaSample : List (SemaEvent (Fin 3)) :=
  [.seize 1 .wait, .ret 1, .seize 2 (.timedWait false), .enqueue, .enqueue, .isrPost, .expire 2, .enqueue, .post 1, .postCount]

theorem semaphore_conservation_sample :
    semaSystem.Legal (semaStart (sampleKernel ⟨.synchronized, .fifo, stWaitingForSemaphore, 0⟩) () 1 .fifo 1) semaSample ∧
      (semaSystem.run (semaStart (sampleKernel ⟨.synchronized, .fifo, stWaitingForSemaphore, 0⟩) () 1 .fifo 1)
        semaSample).sema.count.toNat + (semaSystem.run (semaStart (sampleKernel ⟨.synchronized, .fifo,
          stWaitingForSemaphore, 0⟩) () 1 .fifo 1) semaSample).successes = 3 := by
  have hl : semaSystem.Legal (semaStart (sampleKernel ⟨.synchronized, .fifo, stWaitingForSemaphore, 0⟩) () 1 .fifo 1)
      semaSample := by decide +kernel
  have hp : (semaSystem.run (semaStart (sampleKernel ⟨.synchronized, .fifo, stWaitingForSemaphore, 0⟩) () 1 .fifo 1)
      semaSample).posted = 2 := by decide +kernel
  have hc := (semaphore_conservation _ () 1 .fifo 1 semaSample _ (sampleKernel_idle (by decide)) hl rfl (by decide +kernel)).1
  rw [hp] at hc
  exact ⟨hl, hc⟩

/-- `LWP_SemInit` takes any initial count: one above the limit stays above it while units are taken. -/
theorem semaphore_count_above_max :
    QueueIdle (sampleKernel ⟨.synchronized, .fifo, stWaitingForSemaphore, 0⟩) () ∧
      semaSystem.Legal (semaStart (sampleKernel ⟨.synchronized, .fifo, stWaitingForSemaphore, 0⟩) () 2 .fifo 5)
        [.seize 1 .wait, .ret 1] ∧
      (semaSystem.run (semaStart (sampleKernel ⟨.synchronized, .fifo, stWaitingForSemaphore, 0⟩) () 2 .fifo 5)
        [.seize 1 .wait, .ret 1]).phase.enq = none ∧
      ¬ (semaSystem.run (semaStart (sampleKernel ⟨.synchronized, .fifo, stWaitingForSemaphore, 0⟩) () 2 .fifo 5)
        [.seize 1 .wait, .ret 1]).sema.count ≤ 2 := by
  refine ⟨sampleKernel_idle (by decide), by decide +kernel, by decide +kernel, by decide +kernel⟩

end Libogc
