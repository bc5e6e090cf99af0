import Libogc.Lwp.Join
/-!
# JoinRuns — nobody is left on the list of a closed thread

`JoinInv` says what a join that had to block is owed: it is on the list or on its way, or it was taken off with the value or with a
timeout.  While the thread exits nobody can come (`ExitOk`), as long as nobody is still there when it is detached, and nobody begins to
wait once it was released.
-/
namespace Libogc

open Links Runs

set_option linter.unusedSectionVars false

variable {T W : Type} [DecidableEq T] [DecidableEq W]

/-! ## A thread that is on no queue -/

section Kernel
variable {k k' : Kernel T W} {Qs Qs' : QId T W → Option (List T)} {t : T} {w : W}

theorem TqInv.offQueue (h : TqInv k Qs none) (ht : ∀ w, ¬ Waits Qs w t) (hsched : SchedInv k' Qs') (hw : SameWait Qs Qs')
    (hthr : ∀ u, u ≠ t → k'.thr u = k.thr u) (htimer : (k'.thr t).timer = (k.thr t).timer) (htq : k'.tq = k.tq) : TqInv k' Qs' none := by
  have hmode : k'.mode = k.mode := by
    funext w
    rw [Kernel.mode, htq]
    rfl
  refine ⟨hsched, by rw [hmode]; exact h.shape.congr hw, fun w => by rw [htq]; exact h.state w, fun w u hu => ?_, fun u hu => ?_,
    fun w => by rw [htq]; exact h.sync w, fun _ he => by cases he⟩
  · rw [hw.waits] at hu
    have hne : u ≠ t := fun he => ht w (he ▸ hu)
    rw [hthr u hne, htq]
    exact h.waits w u hu
  · have hactive : (k.thr u).timer = .active := by
      by_cases hne : u = t
      · subst hne
        rw [← htimer]
        exact hu
      · rw [hthr u hne] at hu
        exact hu
    rcases h.timer u hactive with ⟨w, hwaits⟩ | ⟨e, he, -⟩
    · exact .inl ⟨w, (hw.waits w u).2 hwaits⟩
    · cases he

/-- What a step does that changes the state of one thread. -/
structure Kernel.Moved (k k' : Kernel T W) (t : T) (state : BitVec 32) : Prop where
  other : ∀ u, u ≠ t → k'.thr u = k.thr u
  self : k'.thr t = { k.thr t with curState := state }
  tq : k'.tq = k.tq
  exec : k'.executing = k.executing

theorem TqInv.setstate (h : TqInv k Qs none) (hr : k.Ready t) (state : BitVec 32) (hs : state ≠ stReady) :
    ∃ Qs', TqInv (lwpThreadSetstate k t state) Qs' none ∧ SameWait Qs Qs' ∧ k.Moved (lwpThreadSetstate k t state) t state := by
  have hout : ∀ w, ¬ Waits Qs w t := fun w hw => h.not_ready hw hr
  rw [lwpThreadSetstate_eq hr]
  obtain ⟨Qs', hs', -, hw'⟩ := lwpReadyBlock_sched h.sched hr (f := ({ · with curState := state })) ⟨rfl, rfl, rfl⟩ hs
  have hother : ∀ u, u ≠ t → (lwpReadyBlock (k.setThr t ({ · with curState := state })) t).thr u = k.thr u := fun u hu => by
    rw [lwpReadyBlock_thr, setThr_thr_ne _ _ _ hu]
  have hself : (lwpReadyBlock (k.setThr t ({ · with curState := state })) t).thr t = { k.thr t with curState := state } := by
    rw [lwpReadyBlock_thr, setThr_thr_self]
  refine ⟨Qs', h.offQueue hout hs' hw' hother (by rw [hself]) (lwpReadyBlock_tq _ _), hw', hother, hself, lwpReadyBlock_tq _ _,
    lwpReadyBlock_executing _ _⟩

theorem TqInv.clearstate (h : TqInv k Qs none) (hout : ∀ w, ¬ Waits Qs w t) (s : BitVec 32) :
    ∃ Qs', TqInv (lwpThreadClearstate k t s) Qs' none ∧ SameWait Qs Qs' ∧
      k.Moved (lwpThreadClearstate k t s) t (lwpClearstate (k.thr t).curState s) := by
  obtain ⟨Qs', hs', hw'⟩ := lwpThreadClearstate_sched (s := s) h.sched (t := t) (fun hnr _ => h.free hnr hout)
  have hthr := lwpThreadClearstate_thr k t s
  have hother : ∀ u, u ≠ t → (lwpThreadClearstate k t s).thr u = k.thr u := fun u hu => by
    rw [hthr, Kernel.setState, setThr_thr_ne _ _ _ hu]
  have hself : (lwpThreadClearstate k t s).thr t = { k.thr t with curState := lwpClearstate (k.thr t).curState s } := by
    rw [hthr, Kernel.setState, setThr_thr_self]
  exact ⟨Qs', h.offQueue hout hs' hw' hother (by rw [hself]) (lwpThreadClearstate_tq _ _ _), hw', hother, hself,
    lwpThreadClearstate_tq _ _ _, lwpThreadClearstate_executing _ _ _⟩

theorem TqInv.fifo_isempty {ph : Option (Enq T W)} (h : TqInv k Qs ph) (hm : (k.tq w).mode = .fifo) :
    lwpQueueIsempty k.mem (.wait w 0) = true ↔ ∀ u, ¬ Waits Qs w u := by
  obtain ⟨xs, hxs⟩ := Option.isSome_iff_exists.1 (h.shape.fifo w hm).1
  have hiff : ∀ u, Waits Qs w u ↔ u ∈ xs := fun u => by rw [h.shape.waits_fifo h.sched.rep hm, held_eq hxs]
  rw [lwpQueueIsempty_iff h.sched.rep hxs, List.eq_nil_iff_forall_not_mem]
  exact forall_congr' fun u => not_congr (hiff u).symm

theorem TqInv.parked_out (h : TqInv k Qs none) (hst : (k.thr t).curState = stWaitingForJoinatexit) : ∀ w, ¬ Waits Qs w t := by
  intro w hw
  have hwait := (h.state w).2.2.2
  rw [← (h.waits w t hw).1, hst] at hwait
  revert hwait
  decide

end Kernel

/-! ## The invariant -/

section Inv
variable {thethread : T} {joinList : W} {s s' : JoinState T W} {Qs Qs' : QId T W → Option (List T)} {t : T} {value : BitVec 32}

def JoinState.retCode (s : JoinState T W) (t : T) : BitVec 32 := (s.kernel.thr t).wait.retCode

/-- A thread on the list, or on its way. -/
def JoinState.Pending (s : JoinState T W) (joinList : W) (Qs : QId T W → Option (List T)) (t : T) : Prop :=
  Waits Qs joinList t ∨ ∃ e, s.phase = some e ∧ e.thread = t

/-- The value is where the thread asked for it. -/
def JoinState.Got (s : JoinState T W) (t : T) : Prop :=
  ∃ value, s.exited = some value ∧ (s.retArg t ≠ 0 → s.values (s.retArg t) = value)

/-- **Where the thread that is joined stands.** -/
inductive ExitOk (thethread : T) (joinList : W) (s : JoinState T W) (Qs : QId T W → Option (List T)) : Prop
  | running (pc : s.pc = .running) (exited : s.exited = none)
    (state : lwpStatewaitjoinatexit (s.kernel.thr thethread).curState = false)
    (alone : s.detached = true → ∀ t, ¬ s.Pending joinList Qs t)
  | waking (value : BitVec 32) (woke : Bool) (pc : s.pc = .waking value woke) (exited : s.exited = some value)
    (arg : s.retArg thethread = value) (phase : s.phase = none) (ready : s.kernel.Ready thethread)
  | parked (pc : s.pc = .parked) (exited : s.exited = some (s.retArg thethread)) (alone : ∀ t, ¬ s.Pending joinList Qs t)
    (state : (s.kernel.thr thethread).curState = stWaitingForJoinatexit ∨ s.kernel.Ready thethread)
  | closed (pc : s.pc = .closed) (alone : ∀ t, ¬ s.Pending joinList Qs t)

/-- **What the joins are owed**: a join that had to block is pending, or it is over, with the value or an error. -/
structure JoinOwed (thethread : T) (joinList : W) (s : JoinState T W) (Qs : QId T W → Option (List T)) : Prop where
  tq : TqInv s.kernel Qs s.phase
  queue : ∀ e, s.phase = some e → e.queue = joinList
  fields : (s.kernel.tq joinList).mode = .fifo ∧ (s.kernel.tq joinList).timeoutStatus = joinEtimedout
  sync : (s.kernel.tq joinList).syncState ≠ .satisfied
  self : s.calls thethread = false
  pending : ∀ t, s.Pending joinList Qs t → s.calls t = true
  done : ∀ t, s.calls t = true → ¬ s.Pending joinList Qs t → s.kernel.Ready t ∧ (s.retCode t = 0 → s.Got t)
  returned : ∀ r ∈ s.returned, r.Obtained s.exited

/-- **What every run keeps.** -/
structure JoinInv (thethread : T) (joinList : W) (s : JoinState T W) (Qs : QId T W → Option (List T)) : Prop where
  owed : JoinOwed thethread joinList s Qs
  exit : ExitOk thethread joinList s Qs

theorem ExitOk.congr (h : ExitOk thethread joinList s Qs) (hpc : s'.pc = s.pc) (hexited : s'.exited = s.exited)
    (hdetached : s'.detached = s.detached) (harg : s'.retArg thethread = s.retArg thethread) (hphase : s.phase = none → s'.phase = none)
    (hstate : (s'.kernel.thr thethread).curState = (s.kernel.thr thethread).curState)
    (hpending : ∀ t, s'.Pending joinList Qs' t → s.Pending joinList Qs t) : ExitOk thethread joinList s' Qs' := by
  have halone : (∀ t, ¬ s.Pending joinList Qs t) → ∀ t, ¬ s'.Pending joinList Qs' t := fun hno t ht => hno t (hpending t ht)
  cases h with
  | running pc exited state alone =>
    exact .running (hpc.trans pc) (hexited.trans exited) (by rw [hstate]; exact state) fun hd => halone (alone (hdetached ▸ hd))
  | waking value woke pc exited arg phase ready =>
    exact .waking value woke (hpc.trans pc) (hexited.trans exited) (harg.trans arg) (hphase phase) (by rw [Kernel.Ready, hstate]; exact ready)
  | parked pc exited alone state =>
    exact .parked (hpc.trans pc) (by rw [hexited, harg]; exact exited) (halone alone) (by rw [Kernel.Ready, hstate]; exact state)
  | closed pc alone => exact .closed (hpc.trans pc) (halone alone)

theorem ExitOk.of_running (h : ExitOk thethread joinList s Qs) (hpc : s.pc = .running) : s.exited = none ∧
    lwpStatewaitjoinatexit (s.kernel.thr thethread).curState = false ∧ (s.detached = true → ∀ t, ¬ s.Pending joinList Qs t) := by
  cases h with
  | running _ exited state alone => exact ⟨exited, state, alone⟩
  | waking value woke pc _ _ _ _ => rw [hpc] at pc; cases pc
  | parked pc _ _ _ => rw [hpc] at pc; cases pc
  | closed pc _ => rw [hpc] at pc; cases pc

variable {woke : Bool} {valuePtr : BitVec 32} {k : Kernel T W}

theorem ExitOk.of_waking (h : ExitOk thethread joinList s Qs) (hpc : s.pc = .waking value woke) :
    s.exited = some value ∧ s.retArg thethread = value ∧ s.phase = none ∧ s.kernel.Ready thethread := by
  cases h with
  | waking value' woke' pc exited arg phase ready =>
    rw [hpc] at pc
    cases pc
    exact ⟨exited, arg, phase, ready⟩
  | running pc _ _ _ => rw [hpc] at pc; cases pc
  | parked pc _ _ _ => rw [hpc] at pc; cases pc
  | closed pc _ => rw [hpc] at pc; cases pc

theorem ExitOk.of_parked (h : ExitOk thethread joinList s Qs) (hpc : s.pc = .parked) : s.exited = some (s.retArg thethread) ∧
    (∀ t, ¬ s.Pending joinList Qs t) ∧
      ((s.kernel.thr thethread).curState = stWaitingForJoinatexit ∨ s.kernel.Ready thethread) := by
  cases h with
  | parked _ exited alone state => exact ⟨exited, alone, state⟩
  | running pc _ _ _ => rw [hpc] at pc; cases pc
  | waking value woke pc _ _ _ _ => rw [hpc] at pc; cases pc
  | closed pc _ => rw [hpc] at pc; cases pc

theorem ExitOk.of_closed (h : ExitOk thethread joinList s Qs) (hpc : s.pc = .closed) : ∀ t, ¬ s.Pending joinList Qs t := by
  cases h with
  | closed _ alone => exact alone
  | running pc _ _ _ => rw [hpc] at pc; cases pc
  | waking value woke pc _ _ _ _ => rw [hpc] at pc; cases pc
  | parked pc _ _ _ => rw [hpc] at pc; cases pc

theorem JoinState.Got.congr (h : s.Got t) (hexited : s'.exited = s.exited) (harg : s'.retArg t = s.retArg t)
    (hvalues : s'.values = s.values) : s'.Got t := by
  unfold JoinState.Got
  rw [hexited, harg, hvalues]
  exact h

/-! ## The words of the joins -/

theorem setValue_values_self (s : JoinState T W) (h : valuePtr ≠ 0) (value : BitVec 32) :
    (s.setValue valuePtr value).values valuePtr = value := by
  unfold JoinState.setValue
  rw [if_pos h]
  exact Function.update_self ..

theorem setValue_values (s : JoinState T W) (valuePtr value p : BitVec 32) :
    (s.setValue valuePtr value).values p = value ∨ (s.setValue valuePtr value).values p = s.values p := by
  unfold JoinState.setValue
  dsimp only
  split
  · by_cases hp : p = valuePtr
    · subst hp
      exact .inl (Function.update_self ..)
    · exact .inr (Function.update_of_ne hp ..)
  · exact .inr rfl

theorem JoinState.Got.setValue (h : s.Got t) (hexited : s.exited = some value) (valuePtr : BitVec 32) :
    (s.setValue valuePtr value).Got t := by
  obtain ⟨v, hv, hgot⟩ := h
  obtain rfl : value = v := Option.some.inj (hexited.symm.trans hv)
  refine ⟨value, hv, fun hne => ?_⟩
  rcases setValue_values s valuePtr value (s.retArg t) with hw | hw
  · exact hw
  · exact hw.trans (hgot hne)

theorem got_setValue (hexited : s.exited = some value) (t : T) : (s.setValue (s.retArg t) value).Got t :=
  ⟨value, hexited, fun hne => setValue_values_self s hne value⟩

/-! ## Steps that take nobody off the list -/

theorem not_pending (hph : s.phase = none) (hw : ¬ Waits Qs joinList t) : ¬ s.Pending joinList Qs t := by
  rintro (hw' | ⟨e, he, -⟩)
  · exact hw hw'
  · rw [hph] at he
    cases he

theorem pending_idle (hph : s.phase = none) : s.Pending joinList Qs t ↔ Waits Qs joinList t :=
  ⟨fun h => Classical.not_not.1 fun hw => not_pending hph hw h, .inl⟩

/-- A step between calls that changes the state of the thread itself at most, and nothing that another thread is owed. -/
theorem JoinOwed.settle (h : JoinOwed thethread joinList s Qs) {state : BitVec 32} (hph : s.phase = none) (hph' : s'.phase = none)
    (htq : TqInv s'.kernel Qs' none) (hw : SameWait Qs Qs') (hm : s.kernel.Moved s'.kernel thethread state)
    (hcalls : s'.calls = s.calls) (hgot : ∀ t, s.Got t → s'.Got t) (hreturned : ∀ r ∈ s'.returned, r.Obtained s'.exited) :
    JoinOwed thethread joinList s' Qs' := by
  have hpending : ∀ t, s'.Pending joinList Qs' t ↔ s.Pending joinList Qs t := fun t => by
    rw [pending_idle hph, pending_idle hph', hw.waits]
  refine ⟨by rw [hph']; exact htq, fun e he => ?_, by rw [hm.tq]; exact h.fields, by rw [hm.tq]; exact h.sync, by rw [hcalls]; exact h.self,
    fun t ht => ?_, fun t hc hnp => ?_, hreturned⟩
  · rw [hph'] at he
    cases he
  · rw [hcalls]
    exact h.pending t ((hpending t).1 ht)
  · rw [hcalls] at hc
    have hne : t ≠ thethread := by
      rintro rfl
      rw [h.self] at hc
      cases hc
    obtain ⟨hr, hg⟩ := h.done t hc fun hp => hnp ((hpending t).2 hp)
    refine ⟨by rw [Kernel.Ready, hm.other t hne]; exact hr, fun h0 => hgot t (hg ?_)⟩
    rw [JoinState.retCode, hm.other t hne] at h0
    exact h0

theorem JoinInv.switch (h : JoinInv thethread joinList s Qs) (hph : s.phase = none) (t : T) :
    JoinInv thethread joinList (s.switch t) Qs := by
  obtain ⟨howed, hexit⟩ := h
  have htq := howed.tq
  rw [hph] at htq
  refine ⟨⟨?_, howed.queue, howed.fields, howed.sync, howed.self, howed.pending, howed.done, howed.returned⟩,
    hexit.congr rfl rfl rfl rfl (fun hp => hp) rfl (fun _ hp => hp)⟩
  show TqInv _ Qs s.phase
  rw [hph]
  exact htq.switch t

theorem JoinInv.return (h : JoinInv thethread joinList s Qs) {code : BitVec 32}
    (hcode : JoinReturn.Obtained s.exited ⟨t, valuePtr, code, s.values valuePtr⟩) :
    JoinInv thethread joinList (s.return t valuePtr code) Qs := by
  obtain ⟨howed, hexit⟩ := h
  refine ⟨⟨howed.tq, howed.queue, howed.fields, howed.sync, howed.self, howed.pending, howed.done, fun r hr => ?_⟩,
    hexit.congr rfl rfl rfl rfl (fun hp => hp) rfl (fun _ hp => hp)⟩
  rcases List.mem_cons.1 hr with rfl | hr
  · exact hcode
  · exact howed.returned r hr

theorem JoinInv.refuse (h : JoinInv thethread joinList s Qs) {code : BitVec 32} (hcode : code ≠ 0) (t : T) (valuePtr : BitVec 32) :
    JoinInv thethread joinList (s.return t valuePtr code) Qs := h.return fun h0 => absurd h0 hcode

theorem JoinInv.ret (h : JoinInv thethread joinList s Qs) (hph : s.phase = none) (hr : s.kernel.Ready t) (hcall : s.calls t = true) :
    JoinInv thethread joinList (joinNext thethread joinList s (.ret t)) Qs := by
  have hout : ¬ s.Pending joinList Qs t := not_pending hph fun hw => h.owed.tq.not_ready hw hr
  have hgot := (h.owed.done t hcall hout).2
  obtain ⟨howed, hexit⟩ : JoinInv thethread joinList (s.return t (s.retArg t) (s.retCode t)) Qs := h.return hgot
  have hcalls : ∀ u, u ≠ t → Function.update s.calls t false u = s.calls u := fun u hu => Function.update_of_ne hu ..
  refine ⟨⟨howed.tq, howed.queue, howed.fields, howed.sync, ?_, fun u hu => ?_, fun u hu hnp => ?_, howed.returned⟩,
    hexit.congr rfl rfl rfl rfl (fun hp => hp) rfl (fun _ hp => hp)⟩
  · by_cases he : thethread = t
    · rw [he]
      exact Function.update_self ..
    · exact (hcalls _ he).trans howed.self
  · have hne : u ≠ t := fun he => hout (he ▸ hu)
    exact (hcalls u hne).trans (howed.pending u hu)
  · have hne : u ≠ t := by
      rintro rfl
      have hoff : Function.update s.calls u false u = true := hu
      rw [Function.update_self] at hoff
      cases hoff
    exact howed.done u ((hcalls u hne).symm.trans hu) hnp

/-! ## The end of the thread -/

theorem JoinOwed.close (h : JoinOwed thethread joinList s Qs) (hph : s.phase = none) (hr : s.kernel.Ready thethread)
    (halone : ∀ t, ¬ s.Pending joinList Qs t) : ∃ Qs', JoinInv thethread joinList (lwpThreadClose thethread s) Qs' := by
  have htq := h.tq
  rw [hph] at htq
  obtain ⟨Qs', htq', hw, hm⟩ := htq.setstate hr stTransient (by decide)
  have hnot : ¬ lwpStatewaitthreadqueue stTransient = true := by decide
  have htimer : (s.kernel.thr thethread).timer ≠ .active := by
    intro ha
    rcases htq.timer thethread ha with ⟨w, hwaits⟩ | ⟨e, he, -⟩
    · exact htq.not_ready hwaits hr
    · cases he
  have hkernel : (lwpThreadClose thethread s).kernel = lwpThreadSetstate s.kernel thethread stTransient := by
    unfold lwpThreadClose lwpThreadExtractproxy
    dsimp only
    rw [hm.self]
    dsimp only
    rw [if_neg hnot]
    unfold stopTimer lwpWdIsactive
    rw [hm.self]
    dsimp only
    rw [if_pos (by simpa using htimer)]
  have hpend : ∀ t, ¬ (lwpThreadClose thethread s).Pending joinList Qs' t := fun t ht => by
    refine halone t ((pending_idle hph).2 ?_)
    rw [pending_idle (show (lwpThreadClose thethread s).phase = none from hph), hw.waits] at ht
    exact ht
  exact ⟨Qs', h.settle hph hph (by rw [hkernel]; exact htq') hw (by rw [hkernel]; exact hm) rfl (fun t hg => hg) h.returned,
    .closed rfl hpend⟩

theorem JoinOwed.exited (h : JoinOwed thethread joinList s Qs) (hexited : s.exited = none) (valuePtr : BitVec 32) :
    JoinOwed thethread joinList { s with retArg := Function.update s.retArg thethread valuePtr, exited := some valuePtr } Qs := by
  refine ⟨h.tq, h.queue, h.fields, h.sync, h.self, h.pending, fun t hc hnp => ?_, fun r hr h0 => ?_⟩
  · obtain ⟨hr, hg⟩ := h.done t hc hnp
    refine ⟨hr, fun h0 => ?_⟩
    obtain ⟨value, hv, -⟩ := hg h0
    rw [hexited] at hv
    cases hv
  · obtain ⟨value, hv, -⟩ := h.returned r hr h0
    rw [hexited] at hv
    cases hv

theorem JoinInv.exits (h : JoinInv thethread joinList s Qs) (hg : s.MayAct thethread thethread) (valuePtr : BitVec 32) :
    ∃ Qs', JoinInv thethread joinList (joinNext thethread joinList s (.exit valuePtr)) Qs' := by
  obtain ⟨hph, -, hr, -, hpc⟩ := hg
  obtain ⟨howed, hexit⟩ := h.switch hph thethread
  obtain ⟨hnone, -, halone⟩ := hexit.of_running (hpc rfl)
  have hexited := howed.exited hnone valuePtr
  show ∃ Qs', JoinInv _ _ (lwpThreadExit thethread (s.switch thethread) valuePtr) Qs'
  unfold lwpThreadExit
  dsimp only
  split_ifs with hd
  · exact hexited.close hph hr (halone hd)
  · exact ⟨Qs, ⟨hexited.tq, hexited.queue, hexited.fields, hexited.sync, hexited.self, hexited.pending, hexited.done,
      hexited.returned⟩, .waking valuePtr false rfl rfl (Function.update_self ..) hph hr⟩

theorem JoinInv.resume (h : JoinInv thethread joinList s Qs) (hph : s.phase = none) (hpc : s.pc = .parked)
    (hr : s.kernel.Ready thethread) : ∃ Qs', JoinInv thethread joinList (joinNext thethread joinList s .resume) Qs' := by
  obtain ⟨howed, hexit⟩ := h.switch hph thethread
  exact howed.close hph hr (hexit.of_parked hpc).2.1

theorem JoinInv.woken (h : JoinInv thethread joinList s Qs) (hpc : s.pc = .waking value woke) {p : T} (htq : TqInv k Qs' none)
    (hd : Dequeued s.kernel Qs none joinList k Qs' (some p)) :
    JoinInv thethread joinList { s.setValue (s.retArg p) value with kernel := k, pc := .waking value true } Qs' := by
  obtain ⟨howed, hexit⟩ := h
  obtain ⟨hexited, harg, hph, hready⟩ := hexit.of_waking hpc
  cases hd with
  | early e he _ _ _ _ _ => cases he
  | took _ waited waits ready thr tq =>
    have hne : ∀ u, u ≠ p → k.thr u = s.kernel.thr u := fun u hu => by rw [thr, setThr_thr_ne _ _ _ hu]
    have hx : thethread ≠ p := by
      rintro rfl
      exact howed.tq.not_ready waited hready
    have hpending : ∀ {s' : JoinState T W} {t}, s'.phase = none → (s'.Pending joinList Qs' t ↔ s.Pending joinList Qs t ∧ t ≠ p) := by
      intro s' t hph'
      rw [pending_idle hph, pending_idle hph', waits]
    have hgot : ∀ t, s.Got t → (s.setValue (s.retArg p) value).Got t := fun t hg => hg.setValue hexited _
    refine ⟨⟨?_, fun e he => ?_, by rw [tq]; exact howed.fields, by rw [tq]; exact howed.sync, howed.self, fun t ht => ?_,
      fun t hc hnp => ?_, howed.returned⟩, .waking value true rfl hexited harg hph ?_⟩
    · show TqInv k Qs' s.phase
      rw [hph]
      exact htq
    · rw [show s.phase = some e from he] at hph
      cases hph
    · exact howed.pending t ((hpending hph).1 ht).1
    · by_cases hu : t = p
      · subst hu
        exact ⟨ready, fun _ => got_setValue hexited t⟩
      · obtain ⟨hr, hg⟩ := howed.done t hc fun hp => hnp ((hpending hph).2 ⟨hp, hu⟩)
        refine ⟨by rw [Kernel.Ready, hne t hu]; exact hr, fun h0 => hgot t (hg ?_)⟩
        rw [JoinState.retCode] at h0 ⊢
        rw [← hne t hu]
        exact h0
    · rw [Kernel.Ready, hne _ hx]
      exact hready

theorem JoinInv.exhausted (h : JoinInv thethread joinList s Qs) (hpc : s.pc = .waking value woke)
    (hempty : ∀ t, ¬ Waits Qs joinList t) : ∃ Qs', JoinInv thethread joinList (if woke then lwpThreadClose thethread s
      else { s with kernel := lwpThreadSetstate s.kernel thethread stWaitingForJoinatexit, pc := .parked }) Qs' := by
  obtain ⟨howed, hexit⟩ := h
  obtain ⟨hexited, harg, hph, hready⟩ := hexit.of_waking hpc
  split_ifs
  · exact howed.close hph hready fun t ht => hempty t ((pending_idle hph).1 ht)
  · have htq := howed.tq
    rw [hph] at htq
    obtain ⟨Qs', htq', hw, hm⟩ := htq.setstate hready stWaitingForJoinatexit (by decide)
    refine ⟨Qs', howed.settle hph hph htq' hw hm rfl (fun t hg => hg) howed.returned,
      .parked rfl (hexited.trans (congrArg some harg.symm)) (fun t ht => ?_) (.inl ?_)⟩
    · have hwaits : Waits Qs' joinList t := (pending_idle hph).1 ht
      exact hempty t ((hw.waits joinList t).1 hwaits)
    · dsimp only
      rw [hm.self]

theorem JoinInv.wake (h : JoinInv thethread joinList s Qs) :
    ∃ Qs', JoinInv thethread joinList (joinNext thethread joinList s .wake) Qs' := by
  unfold joinNext
  dsimp only
  cases hpc : s.pc with
  | running => exact ⟨Qs, h⟩
  | parked => exact ⟨Qs, h⟩
  | closed => exact ⟨Qs, h⟩
  | waking value woke =>
    have hph := (h.exit.of_waking hpc).2.2.1
    have htq := h.owed.tq
    rw [hph] at htq
    obtain ⟨Qs', htq', hd⟩ := htq.dequeue joinList
    dsimp only
    unfold lwpThreadExitRound
    revert htq' hd
    rcases lwpThreadqueueDequeue s.kernel joinList with ⟨k, o⟩
    intro htq' hd
    cases o with
    | some p => exact ⟨Qs', h.woken hpc htq' hd⟩
    | none =>
      cases hd with
      | nobody hempty _ _ heq =>
        dsimp only at heq ⊢
        rw [heq]
        exact h.exhausted hpc hempty

/-! ## Joins and detaches -/

theorem joinatexit_of_ready (h : k.Ready t) : lwpStatewaitjoinatexit (k.thr t).curState = false := by
  rw [h]
  decide

theorem clearstate_joinatexit (h : lwpStatewaitjoinatexit (k.thr t).curState = false) :
    lwpThreadClearstate k t stWaitingForJoinatexit = k := by
  unfold lwpThreadClearstate
  exact if_neg (by rw [show lwpStatesset _ _ = _ from h]; exact Bool.false_ne_true)

theorem JoinInv.release (h : JoinInv thethread joinList s Qs) (hph : s.phase = none) (hpc : s.pc = .parked) :
    ∃ Qs' state, TqInv (lwpThreadClearstate s.kernel thethread stWaitingForJoinatexit) Qs' none ∧ SameWait Qs Qs' ∧
      s.kernel.Moved (lwpThreadClearstate s.kernel thethread stWaitingForJoinatexit) thethread state ∧
      (lwpThreadClearstate s.kernel thethread stWaitingForJoinatexit).Ready thethread := by
  have htq := h.owed.tq
  rw [hph] at htq
  rcases (h.exit.of_parked hpc).2.2 with hstate | hready
  · obtain ⟨Qs', htq', hw, hm⟩ := htq.clearstate (htq.parked_out hstate) stWaitingForJoinatexit
    refine ⟨Qs', _, htq', hw, hm, ?_⟩
    rw [Kernel.Ready, hm.self, hstate]
    exact (by decide : lwpClearstate stWaitingForJoinatexit stWaitingForJoinatexit = stReady)
  · rw [clearstate_joinatexit (joinatexit_of_ready hready)]
    exact ⟨Qs, _, htq, .refl Qs, ⟨fun _ _ => rfl, rfl, rfl, rfl⟩, hready⟩

theorem JoinInv.takeParked (h : JoinInv thethread joinList s Qs) (hph : s.phase = none) (hpc : s.pc = .parked) (t : T)
    (valuePtr : BitVec 32) :
    ∃ Qs', JoinInv thethread joinList
      ({ s.setValue valuePtr (s.retArg thethread) with
        kernel := lwpThreadClearstate s.kernel thethread stWaitingForJoinatexit }.return t valuePtr 0) Qs' := by
  obtain ⟨Qs', state, htq', hw, hm, hready⟩ := h.release hph hpc
  obtain ⟨howed, hexit⟩ := h
  obtain ⟨hexited, halone, -⟩ := hexit.of_parked hpc
  have hreleased : JoinInv thethread joinList
      { s.setValue valuePtr (s.retArg thethread) with
        kernel := lwpThreadClearstate s.kernel thethread stWaitingForJoinatexit } Qs' := by
    refine ⟨howed.settle hph hph htq' hw hm rfl (fun t hg => ?_) howed.returned, .parked hpc hexited (fun t ht => ?_) (.inr hready)⟩
    · exact hg.setValue hexited valuePtr
    · have hwaits : Waits Qs' joinList t := (pending_idle hph).1 ht
      exact halone t ((pending_idle hph).2 ((hw.waits joinList t).1 hwaits))
  exact ⟨Qs', hreleased.return fun _ => ⟨_, hexited, fun hne => setValue_values_self s hne _⟩⟩

/-- **A join goes on its way** into the list of a thread that is running and joinable. -/
theorem JoinInv.enter (h : JoinInv thethread joinList s Qs) (hph : s.phase = none) (hpc : s.pc = .running) (hdetached : s.detached = false)
    (hexec : s.kernel.executing = t) (hne : t ≠ thethread) (hr : s.kernel.Ready t) (valuePtr : BitVec 32) (timeout : Bool) :
    JoinInv thethread joinList
      { s with
        kernel := joinEnter joinList s.kernel t
        retArg := Function.update s.retArg t valuePtr
        calls := Function.update s.calls t true
        phase := some ⟨t, joinList, timeout, .setstate⟩ } Qs := by
  obtain ⟨howed, hexit⟩ := h
  obtain ⟨hexited, hstate, -⟩ := hexit.of_running hpc
  have htq := howed.tq
  rw [hph] at htq
  have hother : ∀ u, u ≠ t → (joinEnter joinList s.kernel t).thr u = s.kernel.thr u := fun u hu => setThr_thr_ne _ _ _ hu
  have hsync : (joinEnter joinList s.kernel t).tq joinList = { s.kernel.tq joinList with syncState := .nothinghappend } :=
    Function.update_self ..
  have hcalls : ∀ u, u ≠ t → Function.update s.calls t true u = s.calls u := fun u hu => Function.update_of_ne hu ..
  have htq' : TqInv (joinEnter joinList s.kernel t) Qs (some ⟨t, joinList, timeout, .setstate⟩) :=
    htq.enter joinList timeout hexec hr (f := fun l => { l with wait := { l.wait with retCode := 0, queue := some joinList } })
      ⟨rfl, rfl, rfl⟩ rfl rfl rfl
  refine ⟨⟨htq', fun e he => ?_, ?_, ?_, (hcalls _ hne.symm).trans howed.self,
    fun u hu => ?_, fun u hc hnp => ?_, howed.returned⟩, .running hpc hexited ?_ fun hd => ?_⟩
  · rw [← Option.some.inj he]
  · rw [hsync]
    exact howed.fields
  · rw [hsync]
    exact SyncState.noConfusion
  · by_cases hut : u = t
    · rw [hut]
      exact Function.update_self ..
    · refine (hcalls u hut).trans (howed.pending u (.inl (hu.resolve_right ?_)))
      rintro ⟨e, he, rfl⟩
      rw [← Option.some.inj he] at hut
      exact hut rfl
  · have hut : u ≠ t := fun he => hnp (.inr ⟨_, rfl, he.symm⟩)
    obtain ⟨hready, hgot⟩ := howed.done u ((hcalls u hut).symm.trans hc) (not_pending hph fun hw => hnp (.inl hw))
    refine ⟨by rw [Kernel.Ready, hother u hut]; exact hready, fun h0 => ?_⟩
    rw [JoinState.retCode, hother u hut] at h0
    exact (hgot h0).congr rfl (Function.update_of_ne hut ..) rfl
  · rw [hother _ hne.symm]
    exact hstate
  · rw [show s.detached = true from hd] at hdetached
    cases hdetached

theorem JoinInv.join (h : JoinInv thethread joinList s Qs) {call : JoinCall} (hg : s.MayAct thethread t)
    (hkeep : joinKeeps thethread joinList s (.join t valuePtr call)) :
    ∃ Qs', JoinInv thethread joinList (joinNext thethread joinList s (.join t valuePtr call)) Qs' := by
  obtain ⟨hph, hwaking, hr, -, -⟩ := hg
  have h₁ := h.switch hph t
  unfold joinNext
  dsimp only
  rcases hargs : call.arguments with _ | ⟨waitStatus, timeout⟩
  · exact ⟨Qs, h₁.refuse (by decide) t valuePtr⟩
  · dsimp only
    unfold lwpThreadJoinsupp
    dsimp only
    split_ifs with hclosed hdetached hexec hbit hstatus
    · exact ⟨Qs, h₁.refuse (by decide) t valuePtr⟩
    · exact ⟨Qs, h₁.refuse (by decide) t valuePtr⟩
    · exact ⟨Qs, h₁.refuse (by decide) t valuePtr⟩
    · refine h₁.takeParked hph ?_ t valuePtr
      cases hpc : s.pc with
      | parked => exact hpc
      | running =>
        rw [(h₁.exit.of_running hpc).2.1] at hbit
        cases hbit
      | waking value woke =>
        rw [hpc] at hwaking
        cases hwaking
      | closed => exact absurd hpc hclosed
    · exact ⟨Qs, h₁.refuse hstatus t valuePtr⟩
    · have hdetached' : s.detached = false := Bool.eq_false_iff.2 hdetached
      have hpc : s.pc = .running := by
        cases hpc : s.pc with
        | running => rfl
        | parked =>
          rcases hkeep hpc with hd | hb | hargs'
          · exact absurd hd hdetached
          · exact absurd hb hbit
          · rw [hargs, Classical.not_not.1 hstatus] at hargs'
            exact absurd rfl hargs'
        | waking value woke =>
          rw [hpc] at hwaking
          cases hwaking
        | closed => exact absurd hpc hclosed
      have hne : t ≠ thethread := fun he => hexec (decide_eq_true he.symm)
      exact ⟨Qs, h₁.enter hph hpc hdetached' rfl hne hr valuePtr timeout⟩

theorem JoinInv.detach (h : JoinInv thethread joinList s Qs) (hg : s.MayAct thethread t)
    (hempty : lwpQueueIsempty s.kernel.mem (.wait joinList 0) = true) :
    ∃ Qs', JoinInv thethread joinList (joinNext thethread joinList s (.detach t)) Qs' := by
  obtain ⟨hph, hwaking, -, -, -⟩ := hg
  have h₁ := h.switch hph t
  have halone : ∀ u, ¬ s.Pending joinList Qs u := fun u =>
    not_pending hph ((h.owed.tq.fifo_isempty h.owed.fields.1).1 hempty u)
  show ∃ Qs', JoinInv _ _ (lwpDetachThread thethread (s.switch t)).1 Qs'
  unfold lwpDetachThread
  split_ifs with hclosed hdetached
  · exact ⟨Qs, h₁⟩
  · exact ⟨Qs, h₁⟩
  · cases hpc : s.pc with
    | running =>
      obtain ⟨hexited, hstate, -⟩ := h₁.exit.of_running hpc
      rw [clearstate_joinatexit hstate]
      obtain ⟨howed, -⟩ := h₁
      exact ⟨Qs, ⟨howed.tq, howed.queue, howed.fields, howed.sync, howed.self, howed.pending, howed.done, howed.returned⟩,
        .running hpc hexited hstate fun _ => halone⟩
    | parked =>
      obtain ⟨Qs', state, htq', hw, hm, hready⟩ := h₁.release hph hpc
      obtain ⟨howed, hexit⟩ := h₁
      refine ⟨Qs', howed.settle hph hph htq' hw hm rfl (fun u hgot => hgot) howed.returned,
        .parked hpc (hexit.of_parked hpc).1 (fun u hu => ?_) (.inr hready)⟩
      have hwaits : Waits Qs' joinList u := (pending_idle hph).1 hu
      exact halone u ((pending_idle hph).2 ((hw.waits joinList u).1 hwaits))
    | waking value woke =>
      rw [hpc] at hwaking
      cases hwaking
    | closed => exact absurd hpc hclosed

/-! ## The list -/

theorem JoinInv.enqueue (h : JoinInv thethread joinList s Qs) {e : Enq T W} (hph : s.phase = some e) :
    ∃ Qs', JoinInv thethread joinList (joinNext thethread joinList s .enqueue) Qs' := by
  obtain ⟨howed, hexit⟩ := h
  have hqueue := howed.queue e hph
  have hcall : s.calls e.thread = true := howed.pending _ (.inr ⟨e, hph, rfl⟩)
  have hne : thethread ≠ e.thread := by
    intro he
    rw [← he, howed.self] at hcall
    cases hcall
  have htq := howed.tq
  rw [hph] at htq
  obtain ⟨Qs', htq', hframe, hout⟩ := htq.enqNext
  unfold joinNext
  rw [hph]
  dsimp only
  revert htq' hframe hout
  rcases enqNext s.kernel e with ⟨k, o⟩
  intro htq' hframe hout
  dsimp only at htq' hframe hout ⊢
  have hother : ∀ u, u ≠ e.thread → (Waits Qs' joinList u ↔ Waits Qs joinList u) := by
    intro u hu
    cases hout with
    | going _ _ _ _ waits _ => exact waits joinList u
    | linked _ waits _ =>
      rw [waits]
      exact or_iff_left fun hl => hu hl.2
    | timedOut _ waits _ _ => exact waits joinList u
    | satisfied _ waits _ _ => exact waits joinList u
  have hthread : ∀ e', o = some e' → e'.thread = e.thread ∧ e'.queue = joinList := by
    rintro e' rfl
    cases hout with
    | going _ thread queue _ _ _ => exact ⟨thread, queue.trans hqueue⟩
  have hpending : ∀ u, JoinState.Pending { s with kernel := k, phase := o } joinList Qs' u → s.Pending joinList Qs u := by
    intro u hu
    by_cases hut : u = e.thread
    · exact .inr ⟨e, hph, hut.symm⟩
    · rcases hu with hw | ⟨e', he', het⟩
      · exact .inl ((hother u hut).1 hw)
      · exact absurd (het.symm.trans (hthread e' he').1) hut
  refine ⟨Qs', ⟨htq', fun e' he' => (hthread e' he').2, by rw [hframe.tq joinList]; exact howed.fields, ?_, howed.self,
    fun u hu => howed.pending u (hpending u hu), fun u hc hnp => ?_, howed.returned⟩,
    hexit.congr rfl rfl rfl rfl (fun hp => by rw [hph] at hp; cases hp) (by rw [hframe.other _ hne]) hpending⟩
  · show (k.tq joinList).syncState ≠ .satisfied
    cases hout with
    | going _ _ _ tq _ _ =>
      rw [tq]
      exact howed.sync
    | _ =>
      -- nobody is on the way in any more
      have hsync : (k.tq joinList).syncState = .synchronized := Classical.not_not.1 fun hs => by
        obtain ⟨_, he, -⟩ := (htq'.sync joinList).1 hs
        cases he
      rw [hsync]
      exact SyncState.noConfusion
  · by_cases hut : u = e.thread
    · subst hut
      cases hout with
      | going e' thread _ _ _ _ => exact absurd (.inr ⟨e', rfl, thread⟩) hnp
      | linked _ waits _ => exact absurd (.inl ((waits _ _).2 (.inr ⟨hqueue.symm, rfl⟩))) hnp
      | timedOut _ _ ready wait =>
        refine ⟨ready, fun h0 => ?_⟩
        rw [JoinState.retCode, wait, hqueue] at h0
        dsimp only at h0
        rw [howed.fields.2] at h0
        exact absurd h0 (by decide)
      | satisfied sync _ _ _ =>
        rw [hqueue] at sync
        exact absurd sync howed.sync
    · have hnp' : ¬ s.Pending joinList Qs u := by
        rintro (hw | ⟨e', he', het⟩)
        · exact hnp (.inl ((hother u hut).2 hw))
        · rw [hph] at he'
          cases he'
          exact hut het.symm
      obtain ⟨hready, hgot⟩ := howed.done u hc hnp'
      refine ⟨by rw [Kernel.Ready, hframe.other u hut]; exact hready, fun h0 => ?_⟩
      rw [JoinState.retCode, hframe.other u hut] at h0
      exact hgot h0

theorem JoinInv.timedOut (h : JoinInv thethread joinList s Qs) {w : W} (htq : TqInv k Qs' s.phase) (hw : Waits Qs w t)
    (hwaits : ∀ w' u, Waits Qs' w' u ↔ Waits Qs w' u ∧ u ≠ t) (hready : k.Ready t)
    (hthr : k.thr = (s.kernel.setThr t (Lwp.timedOut (s.kernel.tq w).timeoutStatus)).thr) (hkq : k.tq = s.kernel.tq) :
    JoinInv thethread joinList { s with kernel := k } Qs' := by
  obtain ⟨howed, hexit⟩ := h
  have hne : ∀ u, u ≠ t → k.thr u = s.kernel.thr u := fun u hu => by rw [hthr, setThr_thr_ne _ _ _ hu]
  have hnot : ¬ s.kernel.Ready t := howed.tq.not_ready hw
  have hpending : ∀ u, JoinState.Pending { s with kernel := k } joinList Qs' u → s.Pending joinList Qs u := fun u hu =>
    hu.imp_left fun hu => ((hwaits joinList u).1 hu).1
  have halone : (∀ u, ¬ s.Pending joinList Qs u) → ∀ u, ¬ JoinState.Pending { s with kernel := k } joinList Qs' u := fun hno u hu =>
    hno u (hpending u hu)
  refine ⟨⟨htq, howed.queue, by rw [hkq]; exact howed.fields, by rw [hkq]; exact howed.sync, howed.self,
    fun u hu => howed.pending u (hpending u hu), fun u hc hnp => ?_, howed.returned⟩, ?_⟩
  · by_cases hut : u = t
    · subst hut
      refine ⟨hready, fun h0 => ?_⟩
      -- it was on the list: a thread that is past its join is on none
      have hlist : s.Pending joinList Qs u := Classical.not_not.1 fun hno => hnot (howed.done u hc hno).1
      have hwj : Waits Qs joinList u := hlist.resolve_right fun ⟨e, he, het⟩ => (howed.tq.phase e he).out w (het ▸ hw)
      rw [JoinState.retCode, hthr, setThr_thr_self, howed.tq.waits_unique hw hwj] at h0
      dsimp only [Lwp.timedOut] at h0
      rw [howed.fields.2] at h0
      exact absurd h0 (by decide)
    · have hnp' : ¬ s.Pending joinList Qs u := fun hp => hnp (hp.imp_left fun hu => (hwaits joinList u).2 ⟨hu, hut⟩)
      obtain ⟨hr, hgot⟩ := howed.done u hc hnp'
      refine ⟨by rw [Kernel.Ready, hne u hut]; exact hr, fun h0 => hgot ?_⟩
      rw [JoinState.retCode, hne u hut] at h0
      exact h0
  · by_cases hx : thethread = t
    · subst hx
      -- the thread itself waited for something else
      cases hexit with
      | running pc exited _ alone => exact .running pc exited (joinatexit_of_ready hready) fun hd => halone (alone hd)
      | waking value woke _ _ _ _ ready => exact absurd ready hnot
      | parked _ _ alone state =>
        refine absurd ?_ hnot
        refine state.resolve_left fun hst => ?_
        have hwait := (howed.tq.state w).2.2.2
        rw [← (howed.tq.waits w thethread hw).1, hst] at hwait
        exact absurd hwait (by decide)
      | closed pc alone => exact .closed pc (halone alone)
    · exact hexit.congr rfl rfl rfl rfl (fun hp => hp) (by rw [hne _ hx]) hpending

theorem JoinInv.expire (h : JoinInv thethread joinList s Qs) (ha : (s.kernel.thr t).timer = .active) :
    ∃ Qs', JoinInv thethread joinList (joinNext thethread joinList s (.expire t)) Qs' := by
  obtain ⟨Qs', htq', he⟩ := h.owed.tq.tickle ha
  refine ⟨Qs', ?_⟩
  unfold joinNext
  dsimp only
  revert htq' he
  generalize lwpWdTickle s.kernel t = k
  intro htq' he
  cases he with
  | took w hw hwaits hready hthr hkq => exact h.timedOut htq' hw hwaits hready hthr hkq
  | noted e hph het hQs hthr hkq =>
    subst hQs
    obtain ⟨howed, hexit⟩ := h
    have hqueue := howed.queue e hph
    have hsame : ∀ u, (k.thr u).curState = (s.kernel.thr u).curState ∧ (k.thr u).wait = (s.kernel.thr u).wait := by
      intro u
      rw [hthr]
      by_cases hu : u = t
      · rw [hu, setThr_thr_self]
        exact ⟨rfl, rfl⟩
      · rw [setThr_thr_ne _ _ _ hu]
        exact ⟨rfl, rfl⟩
    have hlist : k.tq joinList = { s.kernel.tq joinList with syncState := .timeout } := by
      rw [hkq, hqueue, if_pos howed.sync]
      exact Function.update_self ..
    refine ⟨⟨htq', howed.queue, ?_, ?_, howed.self, howed.pending, fun u hc hnp => ?_, howed.returned⟩,
      hexit.congr rfl rfl rfl rfl (fun hp => hp) (hsame _).1 (fun _ hp => hp)⟩
    · rw [hlist]
      exact howed.fields
    · rw [hlist]
      exact SyncState.noConfusion
    · obtain ⟨hr, hgot⟩ := howed.done u hc hnp
      refine ⟨by rw [Kernel.Ready, (hsame u).1]; exact hr, fun h0 => hgot ?_⟩
      rw [JoinState.retCode, (hsame u).2] at h0
      exact h0

/-! ## Every run -/

theorem joinNext_inv (h : JoinInv thethread joinList s Qs) {e : JoinEvent T} (hg : joinGuard thethread joinList s e)
    (hkeep : joinKeeps thethread joinList s e) : ∃ Qs', JoinInv thethread joinList (joinNext thethread joinList s e) Qs' := by
  cases e with
  | join t valuePtr call => exact h.join hg hkeep
  | enqueue =>
    obtain ⟨e, he⟩ := Option.isSome_iff_exists.1 hg
    exact h.enqueue he
  | ret t => exact ⟨Qs, h.ret hg.1 hg.2.2.1 hg.2.2.2⟩
  | detach t => exact h.detach hg hkeep
  | exit valuePtr => exact h.exits hg valuePtr
  | wake => exact h.wake
  | resume => exact h.resume hg.1 hg.2.1 hg.2.2
  | expire t => exact h.expire hg.1

theorem JoinInv.start (hk : QueueIdle k joinList) (hstate : lwpStatewaitjoinatexit (k.thr thethread).curState = false) :
    ∃ Qs, JoinInv thethread joinList (joinStart k joinList) Qs := by
  obtain ⟨Qs, h, hno⟩ := hk
  obtain ⟨h', hw⟩ := h.threadqueueInit hno .fifo (by decide : WaitState stWaitingForJoin) joinEtimedout
  have hout : ∀ t, ¬ (joinStart k joinList).Pending joinList (freshQueue Qs joinList .fifo) t := fun t =>
    not_pending rfl fun ht => hno t ((hw joinList t).1 ht)
  have htq := lwpThreadqueueInit_tq k joinList .fifo stWaitingForJoin joinEtimedout
  refine ⟨_, ⟨h', nofun, ?_, ?_, rfl, fun t ht => absurd ht (hout t), fun t hc => (by cases hc), nofun⟩, .running rfl rfl ?_ nofun⟩
  · show _ = _ ∧ _ = _
    rw [joinStart, htq, Function.update_self]
    exact ⟨rfl, rfl⟩
  · rw [joinStart, htq, Function.update_self]
    exact SyncState.noConfusion
  · rw [joinStart, lwpThreadqueueInit_thr]
    exact hstate

/-- **Nobody is left on the list of a closed thread**, and each join that returned 0 has the value the thread ended with: in every run of
the joins, the detaches, the exit and the timeouts in which nobody waits when the thread is detached, nor begins to wait once it is
released. -/
theorem join_exit (k : Kernel T W) (hk : QueueIdle k joinList) (hstate : lwpStatewaitjoinatexit (k.thr thethread).curState = false)
    (es : List (JoinEvent T))
    (hes : ((joinSystem thethread joinList).restrict (joinKeeps thethread joinList)).Legal (joinStart k joinList) es) :
    ((joinSystem thethread joinList).run (joinStart k joinList) es).joined joinList := by
  obtain ⟨Qs, howed, hexit⟩ : ∃ Qs, JoinInv thethread joinList
      (((joinSystem thethread joinList).restrict (joinKeeps thethread joinList)).run (joinStart k joinList) es) Qs := by
    refine System.Legal.invariant (I := fun s => ∃ Qs, JoinInv thethread joinList s Qs) (fun s e ⟨Qs, h⟩ hg => ?_)
      (JoinInv.start hk hstate) hes
    exact joinNext_inv h hg.1 hg.2
  exact ⟨fun hpc => (howed.tq.fifo_isempty howed.fields.1).2 fun u hu => hexit.of_closed hpc u (.inl hu), howed.returned⟩

end Inv

/-- Three started threads. -/
def joinSampleKernel : Kernel (Fin 3) Unit := sampleKernel ⟨.synchronized, .fifo, stWaitingForJoin, 0⟩

/-- 2 waits for 1, which exits with a value; a timed join is too late. -/
def joinSample : List (JoinEvent (Fin 3)) :=
  [.join 2 8 (.timedJoin .later), .enqueue, .enqueue, .enqueue, .exit 7, .wake, .wake, .ret 2, .join 2 8 .join]

theorem join_exit_sample : ((joinSystem 1 ()).restrict (joinKeeps 1 ())).Legal (joinStart joinSampleKernel ()) joinSample ∧
    ((joinSystem 1 ()).run (joinStart joinSampleKernel ()) joinSample).joined () := by
  have hl : ((joinSystem 1 ()).restrict (joinKeeps 1 ())).Legal (joinStart joinSampleKernel ()) joinSample := by decide +kernel
  exact ⟨hl, join_exit joinSampleKernel (sampleKernel_idle (by decide)) (by decide +kernel) joinSample hl⟩

/-- 2 waits for 1, which detaches itself and exits. -/
def joinDetached : List (JoinEvent (Fin 3)) := [.join 2 8 .join, .enqueue, .enqueue, .enqueue, .detach 1, .exit 7]

/-- 1 is parked; 2 takes its value and waits for it once more before it goes on. -/
def joinAgain : List (JoinEvent (Fin 3)) :=
  [.exit 7, .wake, .join 2 8 .join, .join 2 8 .join, .enqueue, .enqueue, .enqueue, .resume]

theorem JoinState.not_joined {s : JoinState T W} {joinList : W} (hpc : s.pc = .closed)
    (hne : lwpQueueIsempty s.kernel.mem (.wait joinList 0) = false) : ¬ s.joined joinList := by
  rintro ⟨hempty, -⟩
  rw [hempty hpc] at hne
  cases hne

/-- **Detached while somebody waits, or joined once more after it was released**, the thread is closed with a thread on its list. -/
theorem join_left_behind :
    ((joinSystem 1 ()).Legal (joinStart joinSampleKernel ()) joinDetached ∧
      ¬ ((joinSystem 1 ()).run (joinStart joinSampleKernel ()) joinDetached).joined ()) ∧
    (joinSystem 1 ()).Legal (joinStart joinSampleKernel ()) joinAgain ∧
      ¬ ((joinSystem 1 ()).run (joinStart joinSampleKernel ()) joinAgain).joined () := by
  refine ⟨⟨by decide +kernel, JoinState.not_joined ?_ ?_⟩, by decide +kernel, JoinState.not_joined ?_ ?_⟩
  · decide +kernel
  · decide +kernel
  · decide +kernel
  · decide +kernel

end Libogc
